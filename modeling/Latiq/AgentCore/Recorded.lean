import Latiq.AgentCore.DatasetLoad

/-!
# Operations that go unrecorded

The access record and the lineage of an operation are written behind the await of its engine's part, by the node that
runs it. A future that is dropped at an await writes neither, and the engine's task goes on without it; a call that does
not get to its peer is recorded by neither node.

* `SqlCall.Recorded` — one access record and, for a pond with lineage, one pair of events of one run.
* `SqlCall.KeptOn` — no future is dropped at an await of the node that is to record the call, and the call gets there.

## What is proved

* `recorded_once_iff` — a call is recorded exactly where it is kept on, and so is a load with its writes.
* `abandoned_write` — a write whose future is dropped, and whose snapshot is published all the same.
-/

namespace Latiq.AgentCore

open RustStr (Text)
open Unwind
open Latiq.Common
open Latiq.Lineage

/-! ### Kept on -/

/-- The future is not dropped while the engine has the statement. -/
def SqlRun.Waits : {op : SqlOp} → SqlRun op → Prop
  | _, .readQuery run | _, .writeQuery run => run.task ≠ .dropped
  | _, .readArrow run => run.schema ≠ .dropped
  | _, .readCollected run collected =>
    run.schema ≠ .dropped ∧ (run.schema = .done (some (.ok ())) → collected ≠ .dropped)
  | _, .explainQuery run => run.task ≠ .dropped
  | _, .catalogPull run => run.task ≠ .dropped

/-- The future is not dropped behind the routing. -/
def SqlRun.KeptOn {op : SqlOp} (prep : Except ErrorEnvelope Unit) (run : SqlRun op) : Prop :=
  run.catalog ≠ .dropped ∧ (run.catalog = .done (.ok ()) → prep = .ok () → run.Waits)

/-- **Kept on**: no future is dropped on the node that is to record the call, and the call gets to it. -/
def SqlCall.KeptOn : {op : SqlOp} → SqlCall op → Prop
  | _, .here _ _ lookup owner prep run =>
    lookup ≠ .dropped ∧ ∀ info, lookup = .done (.ok info) → owner = true → run.KeptOn prep
  | _, .forwarded _ _ lookup hop _ peer =>
    lookup ≠ .dropped ∧ ∀ info, lookup = .done (.ok info) → hop.reaches = true ∧ peer.KeptOn

theorem Awaited.recorded_ending {α : Type} {classify : Raised → ErrorEnvelope} {planned : Option QueryMeta}
    {answered : α → Ending} (h : ∀ a, (answered a).recorded.isSome) (task : Task α) :
    (task.ending classify planned answered).recorded.isSome ↔ task ≠ .dropped := by
  obtain ((what | (e | a)) | _) := task
  · exact iff_of_true rfl nofun
  · exact iff_of_true rfl nofun
  · exact iff_of_true (h a) nofun
  · exact iff_of_false nofun fun h => h rfl

/-- What the engine has is recorded where the future waits for it. -/
theorem SqlRun.recorded_engineEnding {op : SqlOp} (site : Site) (run : SqlRun op) :
    (run.engineEnding site).recorded.isSome ↔ run.Waits := by
  cases run with
  | readQuery run =>
    refine Awaited.recorded_ending (fun answered => ?_) run.task
    split_ifs <;> rfl
  | writeQuery run => exact Awaited.recorded_ending (fun _ => rfl) run.task
  | readArrow run =>
    obtain ⟨(_ | (e | _)) | _, expired, published⟩ := run
    · exact iff_of_true rfl nofun
    · exact iff_of_true rfl nofun
    · exact iff_of_true rfl nofun
    · exact iff_of_false nofun fun h => h rfl
  | readCollected run collected =>
    obtain ⟨(_ | (e | _)) | _, expired, published⟩ := run
    · exact iff_of_true rfl ⟨nofun, nofun⟩
    · exact iff_of_true rfl ⟨nofun, nofun⟩
    · obtain ((e | meta_) | _) := collected
      · exact iff_of_true rfl ⟨nofun, fun _ => nofun⟩
      · exact iff_of_true rfl ⟨nofun, fun _ => nofun⟩
      · exact iff_of_false nofun fun h => h.2 rfl rfl
    · exact iff_of_false nofun fun h => h.1 rfl
  | explainQuery run => exact Awaited.recorded_ending (fun _ => rfl) run.task
  | catalogPull run => exact Awaited.recorded_ending (fun _ => rfl) run.task

theorem SqlRun.recorded_ending {op : SqlOp} (site : Site) (prep : Except ErrorEnvelope Unit) (run : SqlRun op) :
    (run.ending site prep).1.recorded.isSome ↔ run.KeptOn prep := by
  unfold SqlRun.ending SqlRun.KeptOn
  rcases run.catalog with ((e | _) | _)
  · exact iff_of_true rfl ⟨nofun, nofun⟩
  · cases prep with
    | error e => exact iff_of_true rfl ⟨nofun, fun _ => nofun⟩
    | ok _ =>
      rw [run.recorded_engineEnding site]
      exact ⟨fun h => ⟨nofun, fun _ _ => h⟩, fun h => h.2 rfl rfl⟩
  · exact iff_of_false nofun fun h => h.1 rfl

/-! ### Recorded -/

/-- A `START` and a terminal event of one run. -/
def Paired (events : List RunEvent) : Prop :=
  ∃ s e, events = [s, e] ∧ s.eventType = .start ∧ e.eventType.isTerminal = true ∧ e.run.runId = s.run.runId

namespace SqlCall

/-- **Recorded**: one access record, and one pair of events where a node gave the statement to the engine of a pond with
lineage, or published a snapshot for it. -/
structure Recorded {op : SqlOp} (c : SqlCall op) (pondRef sql : Text) : Prop where
  access : (c.leaves pondRef sql).access.length = 1
  lineage : (c.leaves pondRef sql).executed ≠ 0 ∨ (c.leaves pondRef sql).published ≠ 0 →
    ∀ x ∈ c.telling, x.info.lineage = true → x.op ≠ .explainQuery → Paired (c.leaves pondRef sql).events

/-- A call leaves one access record where it is kept on, and else none. -/
theorem access_length {op : SqlOp} (c : SqlCall op) (pondRef sql : Text) :
    (c.leaves pondRef sql).access.length = 1 ↔ c.KeptOn := by
  induction c with
  | @here op site m lookup owner prep run =>
    rw [here_leaves]
    obtain ((e | info) | _) := lookup
    · exact iff_of_true rfl ⟨nofun, nofun⟩
    · cases owner with
      | false => exact iff_of_true rfl ⟨nofun, fun _ _ => nofun⟩
      | true =>
        have hlen := (records_length op site m pondRef sql info (run.ending site prep).1.recorded).1
        have hkept := run.recorded_ending site prep
        simp only [if_true]
        show (op.records site m pondRef sql info (run.ending site prep).1.recorded).1.length = 1 ↔ _
        rw [hlen]
        constructor
        · intro h
          refine ⟨nofun, fun _ _ _ => hkept.1 ?_⟩
          by_contra hnot
          rw [if_neg hnot] at h
          cases h
        · intro h
          rw [if_pos (hkept.2 (h.2 info rfl rfl))]
    · exact iff_of_false nofun fun h => h.1 rfl
  | forwarded site m lookup hop unreachable peer ih =>
    rw [forwarded_leaves]
    obtain ((e | info) | _) := lookup
    · exact iff_of_true rfl ⟨nofun, nofun⟩
    · by_cases hr : hop.reaches = true
      · simp only [if_pos hr]
        exact ih.trans ⟨fun h => ⟨nofun, fun _ _ => ⟨hr, h⟩⟩, fun h => (h.2 info rfl).2⟩
      · simp only [if_neg hr]
        exact iff_of_false nofun fun h => hr (h.2 info rfl).1
    · exact iff_of_false nofun fun h => h.1 rfl

/-- A call that is kept on leaves a pair of events of a pond with lineage. -/
theorem paired_of_keptOn {op : SqlOp} {c : SqlCall op} (h : c.KeptOn) {x : Telling} (hx : x ∈ c.telling)
    (hl : x.info.lineage = true) (hop : x.op ≠ .explainQuery) (pondRef sql : Text) :
    Paired (c.leaves pondRef sql).events := by
  induction c with
  | @here op site m lookup owner prep run =>
    rw [here_leaves]
    obtain ((e | info) | _) := lookup
    · cases hx
    · cases owner with
      | false => cases hx
      | true =>
        cases hx
        have hsome := (run.recorded_ending site prep).2 (h.2 info rfl rfl)
        obtain ⟨⟨error, result⟩, hrecorded⟩ := Option.isSome_iff_exists.1 hsome
        simp only [if_true]
        show Paired (op.records site m pondRef sql info (run.ending site prep).1.recorded).2
        rw [hrecorded]
        have hlineage : op.lineage site m sql info error result =
            record m.toSurroundings site.servingName (op.queryRecord site m sql info error result) :=
          (if_neg hop).trans (if_pos hl)
        obtain ⟨s, e, heq, hs, he, hsr, her, -⟩ :=
          record_pair m.toSurroundings site.servingName (op.queryRecord site m sql info error result)
        exact ⟨s, e, hlineage.trans heq, hs, he, her.trans hsr.symm⟩
    · cases hx
  | forwarded site m lookup hop unreachable peer ih =>
    rw [forwarded_leaves]
    obtain ((e | info) | _) := lookup
    · cases hx
    · by_cases hr : hop.reaches = true
      · simp only [if_pos hr]
        exact ih (h.2 info rfl).2 (by simpa [telling, hr] using hx)
      · simp [telling, hr] at hx
    · cases hx

theorem recorded_iff {op : SqlOp} (c : SqlCall op) (pondRef sql : Text) : c.Recorded pondRef sql ↔ c.KeptOn := by
  constructor
  · intro h
    exact (c.access_length pondRef sql).1 h.access
  · intro h
    exact ⟨(c.access_length pondRef sql).2 h, fun _ x hx hl hop => paired_of_keptOn h hx hl hop pondRef sql⟩

end SqlCall

/-! ### Loads -/

section

variable (writes : ℕ → SqlCall .writeQuery) (pondRef : Text)

/-- Every write that begins has it. -/
def EachWrite (P : SqlCall .writeQuery → Text → Prop) : ℕ → List Text → Prop
  | _, [] => True
  | k, sql :: rest => P (writes k) sql ∧ ((writes k).result.isOk → EachWrite P (k + 1) rest)

theorem eachWrite_congr {P Q : SqlCall .writeQuery → Text → Prop} (h : ∀ c sql, P c sql ↔ Q c sql) (k : ℕ)
    (texts : List Text) : EachWrite writes P k texts ↔ EachWrite writes Q k texts := by
  induction texts generalizing k with
  | nil => exact Iff.rfl
  | cons sql rest ih => exact and_congr (h _ _) (imp_congr_right fun _ => ih (k + 1))

variable {writes}

/-- Writes none of whose futures is dropped end. -/
theorem writesResult_of_each {k : ℕ} {texts : List Text} (h : EachWrite writes (fun c _ => c.result ≠ .unwound) k texts) :
    writesResult writes k texts ≠ .unwound := by
  induction texts generalizing k with
  | nil => exact nofun
  | cons sql rest ih =>
    rw [writesResult]
    split_ifs with hok
    · exact ih (h.2 hok)
    · exact h.1

theorem each_of_writesResult {k : ℕ} {texts : List Text} (h : writesResult writes k texts ≠ .unwound) :
    EachWrite writes (fun c _ => c.result ≠ .unwound) k texts := by
  induction texts generalizing k with
  | nil => trivial
  | cons sql rest ih =>
    rw [writesResult] at h
    split_ifs at h with hok
    · refine ⟨fun hbad => ?_, fun _ => ih h⟩
      rw [hbad] at hok
      cases hok
    · exact ⟨h, fun hbad => absurd hbad hok⟩

theorem SqlOp.name_ne (op : SqlOp) : op.name ≠ "load_dataset" := by
  cases op <;> decide

/-- What a call leaves is under the names of its operations. -/
theorem SqlCall.op_ne_of_mem_leaves {op : SqlOp} (c : SqlCall op) {pondRef sql : Text} {r : AccessRecord}
    (h : r ∈ (c.leaves pondRef sql).access) : r.op ≠ "load_dataset" := by
  induction c with
  | @here op site m lookup owner prep run =>
    rw [here_leaves] at h
    obtain ((e | info) | _) := lookup
    · rw [List.mem_singleton.1 h]
      exact op.name_ne
    · cases owner with
      | false =>
        rw [List.mem_singleton.1 h]
        exact op.name_ne
      | true =>
        simp only [if_true] at h
        change r ∈ (op.records site m pondRef sql info (run.ending site prep).1.recorded).1 at h
        cases hrecorded : (run.ending site prep).1.recorded with
        | none =>
          rw [hrecorded] at h
          cases h
        | some recorded =>
          rw [hrecorded] at h
          rw [List.mem_singleton.1 h]
          exact op.name_ne
    · cases h
  | @forwarded op site m lookup hop unreachable peer ih =>
    rw [forwarded_leaves] at h
    obtain ((e | info) | _) := lookup
    · rw [List.mem_singleton.1 h]
      exact op.name_ne
    · by_cases hr : hop.reaches = true
      · simp only [if_pos hr] at h
        exact ih h
      · simp only [if_neg hr] at h
        cases h
    · cases h

theorem op_ne_of_mem_writesTrail {k : ℕ} {texts : List Text} {r : AccessRecord}
    (h : r ∈ (writesTrail pondRef writes k texts).access) : r.op ≠ "load_dataset" := by
  induction texts generalizing k with
  | nil => cases h
  | cons sql rest ih =>
    rw [writesTrail] at h
    rcases List.mem_append.1 h with h | h
    · exact (writes k).op_ne_of_mem_leaves h
    · split_ifs at h
      · exact ih h
      · cases h

end

namespace Load

/-- What begins of a load's writes has it. -/
def Each (load : Load) (P : SqlCall .writeQuery → Text → Prop) : Prop :=
  ∀ ds, load.dataset = .done (.ok ds) → EachWrite load.writes P 0 (loadStatements ds)

/-- **Recorded**: one record of the load, and each write that begins is recorded as a write. -/
structure Recorded (load : Load) (pondRef dataset : Text) : Prop where
  access : ((load.leaves pondRef dataset).access.filter fun r => r.op = "load_dataset").length = 1
  writes : load.Each fun c sql => c.Recorded pondRef sql

/-- **Kept on**: the future of the load is not dropped, and each write that begins is kept on. -/
structure KeptOn (load : Load) : Prop where
  dataset : load.dataset ≠ .dropped
  waits : load.Each fun c _ => c.result ≠ .unwound
  writes : load.Each fun c _ => c.KeptOn

theorem filter_leaves (load : Load) (pondRef dataset : Text) :
    (load.leaves pondRef dataset).access.filter (fun r => r.op = "load_dataset") =
      load.record pondRef dataset (load.innerEnd pondRef).1 := by
  have hinner : ∀ r ∈ (load.innerEnd pondRef).2.access, r.op ≠ "load_dataset" := by
    intro r hr
    unfold innerEnd at hr
    split at hr
    · cases hr
    · cases hr
    · exact op_ne_of_mem_writesTrail pondRef hr
  have hrecord : ∀ r ∈ load.record pondRef dataset (load.innerEnd pondRef).1, r.op = "load_dataset" := by
    intro r hr
    unfold record at hr
    split at hr
    · cases hr
    · rw [List.mem_singleton.1 hr]
      rfl
  rw [leaves_eq]
  show List.filter _ ((load.innerEnd pondRef).2.access ++ _) = _
  rw [List.filter_append, List.filter_eq_nil_iff.2 fun r hr => by simpa using hinner r hr,
    List.filter_eq_self.2 fun r hr => by simpa using hrecord r hr, List.nil_append]

/-- The load has its record where its future is not dropped. -/
theorem record_length (load : Load) (pondRef dataset : Text) :
    (load.record pondRef dataset (load.innerEnd pondRef).1).length = 1 ↔
      load.dataset ≠ .dropped ∧ load.Each fun c _ => c.result ≠ .unwound := by
  have hlen : (load.record pondRef dataset (load.innerEnd pondRef).1).length = 1 ↔
      (load.innerEnd pondRef).1 ≠ .unwound := by
    cases (load.innerEnd pondRef).1 <;> simp [record]
  rw [hlen]
  obtain ⟨site, m, lookup, writes⟩ := load
  obtain ((e | ds) | _) := lookup
  · exact iff_of_true (fun h => by cases h) ⟨(fun h => by cases h), fun _ h => by cases h⟩
  · show writesResult writes 0 (loadStatements ds) ≠ .unwound ↔ _
    constructor
    · intro h
      refine ⟨(fun h => by cases h), ?_⟩
      rintro _ ⟨⟩
      exact each_of_writesResult h
    · intro h
      exact writesResult_of_each (h.2 ds rfl)
  · exact iff_of_false (fun h => h rfl) fun h => h.1 rfl

theorem recorded_iff (load : Load) (pondRef dataset : Text) : load.Recorded pondRef dataset ↔ load.KeptOn := by
  have hwrites : (load.Each fun c sql => c.Recorded pondRef sql) ↔ load.Each fun c _ => c.KeptOn :=
    forall_congr' fun ds => imp_congr_right fun _ =>
      eachWrite_congr load.writes (fun c sql => c.recorded_iff pondRef sql) 0 (loadStatements ds)
  constructor
  · intro h
    have haccess := h.access
    rw [filter_leaves, record_length] at haccess
    exact ⟨haccess.1, haccess.2, hwrites.1 h.writes⟩
  · intro h
    refine ⟨?_, hwrites.2 h.writes⟩
    rw [filter_leaves, record_length]
    exact ⟨h.dataset, h.waits⟩

end Load

/-- **Nothing goes unrecorded** exactly where it is kept on: every call of an operation that runs a caller's SQL, and
every load of a dataset. -/
theorem recorded_once_iff {op : SqlOp} (c : SqlCall op) (load : Load) (pondRef sql dataset : Text) :
    (c.Recorded pondRef sql ↔ c.KeptOn) ∧ (load.Recorded pondRef dataset ↔ load.KeptOn) :=
  ⟨c.recorded_iff pondRef sql, load.recorded_iff pondRef dataset⟩

/-- A write of a snapshot whose future is dropped while the engine runs it. -/
def abandoned : SqlCall .writeQuery :=
  .here Armed.oneNode instant (.done (.ok sales)) true (.ok ()) (.writeQuery ⟨.dropped, false, none, 1⟩)

def insertion : Text := "INSERT INTO t VALUES (1)".toList

/-- **An abandoned write**: its snapshot is published, and nothing is recorded. -/
theorem abandoned_write :
    (abandoned.leaves sales.name insertion).published = 1 ∧ (abandoned.leaves sales.name insertion).access = [] ∧
      (abandoned.leaves sales.name insertion).events = [] ∧ ¬abandoned.Recorded sales.name insertion := by
  refine ⟨rfl, rfl, rfl, fun h => ?_⟩
  cases h.access

end Latiq.AgentCore
