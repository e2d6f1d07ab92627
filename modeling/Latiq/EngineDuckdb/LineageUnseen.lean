import Latiq.EngineDuckdb.Bracket
import Latiq.Library.TwoRuns

/-!
# Lineage and the answer

With lineage on, a call runs two statements more on the caller's connection: one that plans the text, and one that looks up
the columns of the tables of the pond that the plan names. A read runs both in the transaction of the caller's statement,
a write the first one before its transaction and the second one behind it.

## The model

* `Extraction` — how the two end: they run, fail with an error, or are stopped by an interrupt, and a failure may abort the
  transaction it is in. A plan that is an error in-band is a statement that runs and names no table.
* `Unseen` — two calls are compared from one state of the pond and the connection, under one schedule for the caller's
  statements, in which no other connection publishes behind the `BEGIN` of a read.

## What is proved

* `exec_looked` — a transaction that has looked at the catalog before is not told from one that has not, as long as nothing
  is published.
* `write_unseen` — a write is the same with lineage on, whatever becomes of the two statements.
* `lineage_unseen_iff` — columns, rows, what is published and errors are the same with lineage on as with it off, in all
  calls, just where neither statement fails in a way that aborts the transaction of a read.
-/

namespace Latiq.EngineDuckdb

open SqlLex (Text)
open Unwind
open Latiq.Engine (classify)

/-! ### A transaction that has looked already -/

namespace Duck

/-- The connection with its transaction as it is behind a look at the catalog. -/
def looked (s : Duck) : Duck := s.read.2

theorem looked_of_some {s : Duck} {t : Txn} (h : s.conn.txn = some t) :
    s.looked = s.setTxn (some { t with pin := some (t.pin.getD s.db.latest) }) := by
  rw [looked, read, h]

@[simp] theorem looked_ticks (s : Duck) : s.looked.ticks = s.ticks := by
  rw [looked, read]
  split <;> rfl

@[simp] theorem looked_armed (s : Duck) : s.looked.armed = s.armed := by
  rw [looked, read]
  split <;> rfl

@[simp] theorem looked_remains (s : Duck) : s.looked.remains = s.remains := by
  rw [looked, read]
  split <;> rfl

/-- No other connection publishes before the statements to come. -/
def Undisturbed (s : Duck) : Prop := ∀ t ∈ s.ticks, t.others = []

theorem Undisturbed.advance_eq {s : Duck} (h : s.Undisturbed) : s.advance = { s with ticks := s.ticks.tail } := by
  have hf : s.foreign = [] := by
    unfold foreign
    split
    · rfl
    · next t ts ht =>
      rw [h t (ht ▸ List.mem_cons_self)]
      rfl
  rw [advance, hf]
  rfl

/-- The states of two runs of a statement, one of them behind a look at the catalog. -/
structure Behind (s s' : Duck) : Prop where
  undisturbed : s.Undisturbed
  eq : s' = s ∨ s' = s.looked

theorem Behind.remains {s s' : Duck} (h : Behind s s') : s'.remains = s.remains := by
  obtain rfl | rfl := h.eq
  · rfl
  · exact s.looked_remains

/-- The effect of a statement, in a transaction that has looked at the catalog before. -/
theorem perform_looked (st : Stmt) (s : Duck) :
    (perform st s.looked).1 = (perform st s).1 ∧
      ((perform st s.looked).2 = (perform st s).2 ∨ (perform st s.looked).2 = (perform st s).2.looked) := by
  obtain ⟨db, ⟨opened, txn, session, temps⟩, ticks, armed⟩ := s
  cases txn with
  | none => exact ⟨rfl, .inl rfl⟩
  | some t =>
    rw [perform_core st, perform_core st ⟨db, ⟨opened, some t, session, temps⟩, ticks, armed⟩]
    cases hc : st.core with
    | explain a b => exact absurd hc (st.core_ne_explain a b)
    | write c =>
      -- it looks at the catalog itself, or is refused
      cases hro : t.readOnly with
      | true => simp [perform, looked, read, setTxn, hro]
      | false => simp [perform, looked, read, setTxn, hro]
    | select => exact ⟨rfl, .inl rfl⟩
    | commit =>
      by_cases hch : t.changes = []
      · simp [perform, looked, read, setTxn, publish, hch]
      · simp [perform, looked, read, setTxn, publish, hch]
    | rollback => exact ⟨rfl, .inl rfl⟩
    | _ => exact ⟨rfl, .inr rfl⟩

theorem broken_looked (st : Stmt) (s : Duck) (breaks : Bool) :
    s.looked.broken st breaks = s.broken st breaks ∨ s.looked.broken st breaks = (s.broken st breaks).looked := by
  obtain ⟨db, ⟨opened, txn, session, temps⟩, ticks, armed⟩ := s
  cases txn with
  | none => exact .inl rfl
  | some t =>
    cases breaks with
    | false => exact .inr rfl
    | true =>
      by_cases hc : st = .commit
      · left
        simp [broken, looked, read, setTxn, hc]
      · right
        simp [broken, looked, read, setTxn, hc]

theorem refuses_looked (st : Stmt) (s : Duck) : s.looked.refuses st = s.refuses st := by
  obtain ⟨db, ⟨opened, txn, session, temps⟩, ticks, armed⟩ := s
  cases txn <;> rfl

theorem Undisturbed.advance_looked {s : Duck} (h : s.Undisturbed) : s.looked.advance = s.advance.looked := by
  have hlooked : s.looked.Undisturbed := by
    unfold Undisturbed
    rwa [looked_ticks]
  rw [hlooked.advance_eq, h.advance_eq]
  obtain ⟨db, ⟨opened, txn, session, temps⟩, ticks, armed⟩ := s
  cases txn <;> rfl

theorem stop?_looked (st : Stmt) (s : Duck) : s.looked.stop? st = s.stop? st := by
  rw [stop?, stop?, looked_ticks, looked_armed]

theorem perform_ticks (st : Stmt) (s : Duck) : (perform st s).2.ticks = s.ticks := by
  rw [perform_core]
  cases hc : st.core with
  | explain a b => exact absurd hc (st.core_ne_explain a b)
  | select => exact s.looked_ticks
  | session x => rfl
  | attach x => rfl
  | _ =>
    simp only [perform]
    split
    all_goals first | rfl | exact publish_ticks _ _ _ | skip
    all_goals split <;> rfl

theorem exec_ticks (st : Stmt) (s : Duck) : (s.exec st).2.ticks = s.ticks.tail := by
  rcases exec_cases st s with ⟨msg, breaks, -, he⟩ | ⟨-, -, he⟩ | ⟨-, -, he⟩ <;> rw [he]
  · rw [broken_ticks, advance_ticks]
  · exact s.advance_ticks
  · rw [perform_ticks, advance_ticks]

/-- **A transaction that has looked is not told from one that has not**, where nothing is published. -/
theorem exec_looked (st : Stmt) {s s' : Duck} (h : Behind s s') :
    (s'.exec st).1 = (s.exec st).1 ∧ Behind (s.exec st).2 (s'.exec st).2 := by
  have hnext : (s.exec st).2.Undisturbed := by
    unfold Undisturbed
    rw [exec_ticks]
    exact fun t ht => h.undisturbed t (List.mem_of_mem_tail ht)
  obtain rfl | rfl := h.eq
  · exact ⟨rfl, hnext, .inl rfl⟩
  suffices hend : (s.looked.exec st).1 = (s.exec st).1 ∧
      ((s.looked.exec st).2 = (s.exec st).2 ∨ (s.looked.exec st).2 = (s.exec st).2.looked) from
    ⟨hend.1, hnext, hend.2⟩
  rw [exec, exec, stop?_looked, h.undisturbed.advance_looked, refuses_looked]
  cases s.stop? st with
  | some stop => exact ⟨rfl, broken_looked st s.advance stop.2⟩
  | none =>
    dsimp only
    split_ifs
    · exact ⟨rfl, .inr rfl⟩
    · exact perform_looked st s.advance

end Duck

open Duck (Behind)

/-! ### A caller's statements do not tell the two apart -/

theorem execute_agrees (st : Stmt) : Act.Agrees Behind (execute st) :=
  Act.agrees_lift fun _ _ h => Duck.exec_looked st h

theorem executeAll_agrees (sts : List Stmt) : Act.Agrees Behind (executeAll sts) := by
  induction sts with
  | nil => exact Act.agrees_pure _
  | cons st sts ih => exact (execute_agrees st).bind fun _ => ih

section

variable (g : Grammar)

theorem executeBatch_agrees (sql : Text) : Act.Agrees Behind (executeBatch g sql) := by
  unfold executeBatch
  split
  · exact Act.agrees_fail _
  · exact executeAll_agrees _

theorem ours_agrees (sql : String) : Act.Agrees Behind (ours g sql) := (executeBatch_agrees g _).mapErr _

theorem rollback_agrees : Act.Agrees Behind (rollback g) :=
  (executeBatch_agrees g _).attempt.bind fun _ => Act.agrees_pure _

theorem prepareAll_agrees (sts : List Stmt) : Act.Agrees Behind (prepareAll sts) := by
  induction sts with
  | nil => exact Act.agrees_pure _
  | cons st sts ih =>
    cases sts with
    | nil => exact Act.agrees_pure _
    | cons st' sts => exact (execute_agrees st).bind fun _ => ih

theorem prepare_agrees (sql : Text) : Act.Agrees Behind (prepare g sql) := by
  unfold prepare
  split_ifs
  · exact Act.agrees_fail _
  · refine Act.Agrees.mapErr ?_ _
    split
    · exact Act.agrees_fail _
    · exact prepareAll_agrees _

theorem fetchRows_agrees : ∀ fetch : Fetch, Act.Agrees Behind (fetchRows fetch)
  | .done _ => Act.agrees_pure _
  | .fails _ => Act.agrees_fail _
  | .unwinds => Act.agrees_unwind

theorem runRead_agrees (sql : Text) (fetch : Fetch) : Act.Agrees Behind (runRead g sql fetch) := by
  unfold runRead
  split_ifs
  · exact Act.agrees_fail _
  refine Act.Agrees.bind ?_ fun _ => Act.agrees_pure _
  refine (prepare_agrees g sql).bind fun last => ?_
  cases last with
  | none => exact Act.agrees_pure _
  | some st =>
    exact ((execute_agrees st).mapErr _).bind fun _ => (fetchRows_agrees fetch).bind fun _ => Act.agrees_pure _

theorem takeBatches_agrees (batches : List BatchStep) (rows : ℕ) : Act.Agrees Behind (takeBatches rows batches) := by
  induction batches generalizing rows with
  | nil => exact Act.agrees_pure _
  | cons b bs ih =>
    cases b with
    | cancelled => exact Act.agrees_fail _
    | unwinds => exact Act.agrees_unwind
    | taken n stop =>
      rw [takeBatches]
      split_ifs
      · exact Act.agrees_pure _
      · exact ih _

theorem runReadArrow_agrees (sql : Text) (stream : Stream) : Act.Agrees Behind (runReadArrow g sql stream) := by
  unfold runReadArrow
  split_ifs with hwrite hstops
  · exact Act.agrees_fail _
  · refine (prepare_agrees g sql).bind fun last => ?_
    cases last with
    | none => exact Act.agrees_pure _
    | some st => exact ((execute_agrees st).mapErr _).bind fun _ => Act.agrees_pure _
  · refine (prepare_agrees g sql).bind fun last => ?_
    cases last with
    | none => exact Act.agrees_pure _
    | some st =>
      exact ((execute_agrees st).mapErr _).bind fun _ => (takeBatches_agrees _ _).bind fun _ => Act.agrees_pure _

/-! ### Calls with and without lineage -/

/-- How the two statements end, and whether the plan names a table of the pond. -/
structure Extraction where
  owned : Bool
  plan : Fate
  annotation : Fate
  deriving DecidableEq, Repr

/-- Whether a failure aborts the transaction it is in. -/
def Fate.breaks : Fate → Bool
  | .runs => false
  | .fails _ breaks => breaks
  | .interrupted breaks => breaks

/-- A statement that is run aborts its transaction. The columns are looked up where the plan names a table of the pond. -/
def Extraction.aborts (e : Extraction) : Bool :=
  e.plan.breaks || (decide (e.plan = .runs) && e.owned && e.annotation.breaks)

/-- The schedule of the statements. -/
def Extraction.ticks (e : Extraction) : List Tick :=
  ⟨[], e.plan⟩ :: if e.plan = .runs ∧ e.owned = true then [⟨[], e.annotation⟩] else []

/-- The connection with another schedule. -/
def Duck.retick (s : Duck) (ticks : List Tick) : Duck := { s with ticks }

/-- A schedule with these behind its first one. -/
def behindFirst (ticks : List Tick) : List Tick → List Tick
  | [] => .plain :: ticks
  | t :: ts => t :: (ticks ++ ts)

/-- The place of a pond, with lineage on or off. -/
def PondLocation.withLineage (loc : PondLocation) (lineage : Bool) : PondLocation := { loc with lineage }

/-- An answer without its datasets. -/
def plainly : Ended EngineError QueryResult → Ended EngineError QueryResult
  | .ok r => .ok { r with meta_ := { r.meta_ with datasets := none } }
  | .err e => .err e
  | .unwound => .unwound

/-- What a call answers, and what it leaves behind. -/
def outcome (x : Ended EngineError QueryResult × Duck) : Ended EngineError QueryResult × Duck.Remains :=
  (plainly x.1, x.2.remains)

/-- With lineage on, a call answers as it does with lineage off, and leaves the same behind: a read, behind the `BEGIN` of
which nobody publishes; and a write, on a connection outside a transaction. -/
structure Unseen (e : Extraction) : Prop where
  readQuery : ∀ (g : Grammar) (loc : PondLocation) (sql : Text) (fetch : Fetch) (s : Duck),
    (∀ t ∈ s.ticks.tail, t.others = []) →
    outcome (readQuery g (loc.withLineage true) e.owned sql fetch (s.retick (behindFirst e.ticks s.ticks))) =
      outcome (readQuery g (loc.withLineage false) e.owned sql fetch s)
  readArrow : ∀ (g : Grammar) (loc : PondLocation) (sql : Text) (stream : Stream) (s : Duck),
    (∀ t ∈ s.ticks.tail, t.others = []) →
    outcome (readArrow g (loc.withLineage true) e.owned sql stream (s.retick (behindFirst e.ticks s.ticks))) =
      outcome (readArrow g (loc.withLineage false) e.owned sql stream s)
  writeQuery : ∀ (g : Grammar) (waits : List Bool) (loc : PondLocation) (sql : Text) (identity : Identity)
    (traceId : Option Text) (fetch : Fetch) (s : Duck), s.conn.txn = none →
    outcome (writeQuery g waits (loc.withLineage true) e.owned sql identity traceId fetch
        (s.retick (⟨[], e.plan⟩ :: s.ticks))) =
      outcome (writeQuery g waits (loc.withLineage false) e.owned sql identity traceId fetch s)

/-! ### A read -/

/-- A read in its transaction, with its datasets. -/
def provenanced (loc : PondLocation) (owned : Bool) (run : Act Duck EngineError QueryResult) :
    Act Duck EngineError QueryResult := do
  let datasets ← planDatasets loc
  let datasets ← annotate owned datasets
  let res ← run
  pure { res with meta_ := applyDatasets res.meta_ datasets }

/-- A run with these datasets, up to the `COMMIT`. -/
def committed (run : Act Duck EngineError QueryResult) (datasets : Option (List Reading)) :
    Act Duck EngineError QueryResult := do
  let res ← run
  ours g "COMMIT"
  pure { res with meta_ := applyDatasets res.meta_ datasets }

variable {g}

theorem plainly_committed (run : Act Duck EngineError QueryResult) (datasets : Option (List Reading)) (s : Duck) :
    plainly (committed g run datasets s).1 = plainly (committed g run none s).1 ∧
      (committed g run datasets s).1.isOk = (committed g run none s).1.isOk ∧
      (committed g run datasets s).2 = (committed g run none s).2 := by
  unfold committed
  rw [Act.bind_apply, Act.bind_apply]
  rcases run s with ⟨r | e | _, t⟩
  · dsimp only
    rw [Act.bind_apply, Act.bind_apply]
    rcases ours g "COMMIT" t with ⟨u | e | _, t'⟩
    · cases datasets <;> exact ⟨rfl, rfl, rfl⟩
    · exact ⟨rfl, rfl, rfl⟩
    · exact ⟨rfl, rfl, rfl⟩
  · exact ⟨rfl, rfl, rfl⟩
  · exact ⟨rfl, rfl, rfl⟩

theorem committed_agrees {run : Act Duck EngineError QueryResult} (h : Act.Agrees Behind run)
    (datasets : Option (List Reading)) : Act.Agrees Behind (committed g run datasets) :=
  h.bind fun _ => (ours_agrees g _).bind fun _ => Act.agrees_pure _

theorem perform_retick (st : Stmt) (s : Duck) (ticks : List Tick) :
    Duck.perform st (s.retick ticks) = ((Duck.perform st s).1, (Duck.perform st s).2.retick ticks) := by
  rw [Duck.perform_core, Duck.perform_core st s]
  obtain ⟨db, ⟨opened, txn, session, temps⟩, _, armed⟩ := s
  cases hc : st.core with
  | explain a b => exact absurd hc (st.core_ne_explain a b)
  | write c =>
    cases txn with
    | none => rfl
    | some t => cases hro : t.readOnly <;> simp [Duck.perform, Duck.retick, Duck.setTxn, hro]
  | commit =>
    cases txn with
    | none => rfl
    | some t => by_cases hch : t.changes = [] <;> simp [Duck.perform, Duck.retick, Duck.publish, hch]
  | _ => cases txn <;> rfl

theorem broken_retick (st : Stmt) (s : Duck) (breaks : Bool) (ticks : List Tick) :
    (s.retick ticks).broken st breaks = (s.broken st breaks).retick ticks := by
  obtain ⟨db, ⟨opened, txn, session, temps⟩, _, armed⟩ := s
  cases txn with
  | none => rfl
  | some t =>
    cases breaks with
    | false => rfl
    | true => by_cases hc : st = .commit <;> simp [Duck.broken, Duck.retick, Duck.setTxn, hc]

/-- A statement uses up one of the schedule, whatever is behind it. -/
theorem exec_behindFirst (st : Stmt) (s : Duck) (ticks : List Tick) :
    (s.retick (behindFirst ticks s.ticks)).exec st =
      ((s.exec st).1, (s.exec st).2.retick (ticks ++ s.ticks.tail)) := by
  have hstop : (s.retick (behindFirst ticks s.ticks)).stop? st = s.stop? st := by
    unfold Duck.stop?
    cases h : s.ticks <;> rfl
  have hadvance : (s.retick (behindFirst ticks s.ticks)).advance = s.advance.retick (ticks ++ s.ticks.tail) := by
    obtain ⟨db, conn, ts, armed⟩ := s
    cases ts with
    | nil =>
      rw [List.tail_nil, List.append_nil]
      rfl
    | cons t ts => rfl
  have hrefuses : (s.advance.retick (ticks ++ s.ticks.tail)).refuses st = s.advance.refuses st := rfl
  rw [Duck.exec, Duck.exec, hstop, hadvance, hrefuses]
  cases s.stop? st with
  | some stop => exact congrArg (Prod.mk _) (broken_retick st s.advance stop.2 _)
  | none =>
    dsimp only
    split_ifs
    · rfl
    · exact perform_retick st s.advance _

/-- A look at the catalog, in a transaction that is not aborted: it may fail, but does not abort it. -/
theorem exec_select_retick {s : Duck} {t : Txn} (ht : s.conn.txn = some t) (ha : t.aborted = false)
    (harmed : s.armed = true) {fate : Fate} (hf : fate.breaks = false) (ticks : List Tick) :
    ∃ x s', (s.retick (⟨[], fate⟩ :: ticks)).exec .select = (x, s'.retick ticks) ∧ (s' = s ∨ s' = s.looked) ∧
      ((fate = .runs ∧ ∃ r, x = .ok r) ∨ fate ≠ .runs ∧ ∃ m, x = .error m) := by
  have hbroken : ((s.retick ticks).broken .select false) = s.retick ticks := by
    rw [broken_retick, Duck.broken, ht]
    rfl
  have hadvance : (s.retick (⟨[], fate⟩ :: ticks)).advance = s.retick ticks := rfl
  cases fate with
  | runs =>
    have hrefuses : (s.retick ticks).refuses .select = false := by
      rw [Duck.refuses_of_txn (s := s.retick ticks) ht, ha, Bool.false_and]
    have hexec : (s.retick (⟨[], .runs⟩ :: ticks)).exec .select = Duck.perform .select (s.retick ticks) :=
      if_neg (by rw [hadvance, hrefuses]; exact Bool.false_ne_true)
    obtain ⟨r, t', hread⟩ := s.read_eq
    refine ⟨.ok r, s.looked, ?_, .inr rfl, .inl ⟨rfl, r, rfl⟩⟩
    have hvalue : (Duck.perform .select s).1 = .ok r := congrArg Prod.fst hread
    rw [hexec, perform_retick, hvalue]
    rfl
  | fails msg breaks =>
    cases hf
    exact ⟨_, s, congrArg (Prod.mk _) hbroken, .inl rfl, .inr ⟨Fate.noConfusion, msg, rfl⟩⟩
  | interrupted breaks =>
    cases hf
    refine ⟨.error interruptMessage, s, ?_, .inl rfl, .inr ⟨Fate.noConfusion, interruptMessage, rfl⟩⟩
    have hstop : (s.retick (⟨[], .interrupted false⟩ :: ticks)).stop? .select = some (interruptMessage, false) :=
      if_pos harmed
    rw [Duck.exec, hstop]
    exact congrArg (Prod.mk _) hbroken

theorem looked_looked (s : Duck) : s.looked.looked = s.looked := by
  obtain ⟨db, ⟨opened, txn, session, temps⟩, _, armed⟩ := s
  cases txn <;> rfl

theorem provenanced_apply {loc : PondLocation} {owned : Bool} {s s' : Duck} {datasets : Option (List Reading)}
    (h : (planDatasets loc >>= annotate owned) s = (.ok datasets, s')) (run : Act Duck EngineError QueryResult) :
    (provenanced loc owned run >>= fun out => ours g "COMMIT" >>= fun _ => pure out) s =
      committed g run datasets s' := by
  have hassoc : (provenanced loc owned run >>= fun out => ours g "COMMIT" >>= fun _ => pure out) =
      (planDatasets loc >>= annotate owned) >>= fun datasets => committed g run datasets := by
    unfold provenanced committed
    simp only [Act.bind_assoc, Act.pure_bind]
  rw [hassoc, Act.bind_of_ok h]

/-- What a look at the catalog gives to the datasets. -/
def readings : Except Text Reading → List Reading
  | .ok r => [r]
  | .error _ => []

theorem planDatasets_reads (loc : PondLocation) (s : Duck) : planDatasets (loc.withLineage true) s =
    (.ok (some (readings (s.exec .select).1)), (s.exec .select).2) := by
  have h : (loc.withLineage true).lineage = true := rfl
  rw [planDatasets, if_pos h, referencedTables, Act.bind_apply, Act.bind_apply, Act.attempt, execute_apply]
  rcases (s.exec .select).1 with e | r <;> rfl

theorem annotate_none {owned : Bool} {datasets : List Reading} (h : owned = false ∨ datasets = []) :
    annotate owned (some datasets) = pure (some datasets) := by
  rw [annotate, annotateSchemas, if_pos h]
  rfl

theorem annotate_reads {r : Reading} (s : Duck) : annotate true (some [r]) s =
    (.ok (some (r :: readings (s.exec .select).1)), (s.exec .select).2) := by
  have hask : ¬(true = false ∨ [r] = []) := by simp
  rw [annotate, annotateSchemas, if_neg hask, Act.bind_apply, Act.bind_apply, Act.attempt, execute_apply]
  rcases (s.exec .select).1 with e | r <;> rfl

/-- **The two statements, in the transaction of a read**: they end, and the connection is where it was, with one look at the
catalog at most. -/
theorem lineage_looks {e : Extraction} (he : e.aborts = false) (loc : PondLocation) {s : Duck} {t : Txn}
    (ht : s.conn.txn = some t) (ha : t.aborted = false) (harmed : s.armed = true) (ticks : List Tick) :
    ∃ datasets s', (planDatasets (loc.withLineage true) >>= annotate e.owned) (s.retick (e.ticks ++ ticks)) =
      (.ok datasets, s'.retick ticks) ∧ (s' = s ∨ s' = s.looked) := by
  obtain ⟨owned, plan, annotation⟩ := e
  simp only [Extraction.aborts, Bool.or_eq_false_iff] at he
  obtain ⟨hplan, hannotation⟩ := he
  obtain ⟨more, hmore⟩ : ∃ more, more = if plan = .runs ∧ owned = true then [(⟨[], annotation⟩ : Tick)] else [] := ⟨_, rfl⟩
  obtain ⟨x, u, hexec, hu, hend⟩ := exec_select_retick ht ha harmed hplan (more ++ ticks)
  have hplanned : planDatasets (loc.withLineage true) (s.retick (Extraction.ticks ⟨owned, plan, annotation⟩ ++ ticks)) =
      (.ok (some (readings x)), u.retick (more ++ ticks)) := by
    rw [Extraction.ticks, ← hmore, List.cons_append, planDatasets_reads, hexec]
  rw [Act.bind_of_ok hplanned]
  dsimp only
  by_cases hlook : plan = .runs ∧ owned = true
  · obtain ⟨rfl, rfl⟩ := hlook
    obtain ⟨-, r, rfl⟩ := hend.resolve_right fun h => h.1 rfl
    rw [if_pos ⟨rfl, rfl⟩] at hmore
    obtain ⟨t', ht', ha'⟩ : ∃ t', u.conn.txn = some t' ∧ t'.aborted = false := by
      obtain rfl | rfl := hu
      · exact ⟨t, ht, ha⟩
      · rw [Duck.looked_of_some ht]
        exact ⟨_, rfl, ha⟩
    have harmed' : u.armed = true := by
      obtain rfl | rfl := hu
      · exact harmed
      · rwa [Duck.looked_armed]
    have hf : annotation.breaks = false := by simpa using hannotation
    obtain ⟨x', u', hexec', hu', -⟩ := exec_select_retick ht' ha' harmed' hf ticks
    refine ⟨some (r :: readings x'), u', ?_, ?_⟩
    · rw [hmore, List.singleton_append, readings, annotate_reads, hexec']
    · obtain rfl | rfl := hu'
      · exact hu
      · obtain rfl | rfl := hu
        · exact .inr rfl
        · exact .inr (looked_looked s)
  · rw [if_neg hlook] at hmore
    refine ⟨some (readings x), u, ?_, hu⟩
    have hnone : owned = false ∨ readings x = [] := by
      rcases hend with ⟨rfl, _⟩ | ⟨_, m, rfl⟩
      · exact .inl (Bool.eq_false_iff.2 fun ho => hlook ⟨rfl, ho⟩)
      · exact .inr rfl
    rw [hmore, List.nil_append, annotate_none hnone]
    rfl

theorem plainly_mapErr (f : EngineError → EngineError) (x : Ended EngineError QueryResult) :
    plainly (x.mapErr f) = (plainly x).mapErr f := by
  cases x <;> rfl

theorem isOk_mapErr (f : EngineError → EngineError) (x : Ended EngineError QueryResult) :
    (x.mapErr f).isOk = x.isOk := by
  cases x <;> rfl

theorem isOk_of_plainly {x y : Ended EngineError QueryResult} (h : plainly x = plainly y) : x.isOk = y.isOk := by
  cases x <;> cases y <;> first | rfl | cases h

/-- What is run under the watcher answers as it does without. -/
theorem outcome_runWithAbort {f f' : Act Duck EngineError QueryResult} {s s' : Duck}
    (h : outcome (f (s.arm true)) = outcome (f' (s'.arm true))) :
    outcome (runWithAbort f s) = outcome (runWithAbort f' s') := by
  obtain ⟨hvalue, hstate⟩ := Prod.mk.inj h
  rw [runWithAbort_apply, runWithAbort_apply, outcome, outcome, plainly_mapErr, plainly_mapErr, hvalue]
  exact congrArg (Prod.mk _) hstate

theorem provenanced_off (loc : PondLocation) (owned : Bool) (run : Act Duck EngineError QueryResult) (s : Duck) :
    (provenanced (loc.withLineage false) owned run >>= fun out => ours g "COMMIT" >>= fun _ => pure out) s =
      committed g run none s :=
  provenanced_apply rfl run

/-- **A read answers the same with lineage on.** The two statements leave its transaction where it was, but for a look at
the catalog, and what is run behind them does not tell. -/
theorem read_unseen {run : Act Duck EngineError QueryResult} (hrun : Act.Agrees Behind run) {e : Extraction}
    (he : e.aborts = false) (loc : PondLocation) {s : Duck} (hs : ∀ t ∈ s.ticks.tail, t.others = [])
    (harmed : s.armed = true) :
    outcome (inReadTxn g (provenanced (loc.withLineage true) e.owned run) (s.retick (behindFirst e.ticks s.ticks))) =
      outcome (inReadTxn g (provenanced (loc.withLineage false) e.owned run) s) := by
  have hon := ours_beginReadOnly g (s.retick (behindFirst e.ticks s.ticks))
  have hoff := ours_beginReadOnly g s
  rw [exec_behindFirst] at hon
  have hticks := Duck.exec_ticks (.beginTxn true) s
  have harm := Duck.exec_armed (.beginTxn true) s
  rcases hb : s.exec (.beginTxn true) with ⟨m | r, b⟩ <;> rw [hb] at hon hoff hticks harm
  · rw [inReadTxn, inReadTxn, Act.bind_of_err hon, Act.bind_of_err hoff]
    rfl
  obtain ⟨t, ht, ha⟩ : ∃ t, b.conn.txn = some t ∧ t.aborted = false := by
    obtain ⟨-, rfl⟩ := Duck.exec_begin_ok hb
    exact ⟨_, rfl, rfl⟩
  have hsame : b = b.retick s.ticks.tail := by
    rw [← hticks]
    rfl
  obtain ⟨datasets, s', hlooks, hs'⟩ := lineage_looks he loc ht ha (harm.trans harmed) s.ticks.tail
  have hbehind : Behind b (s'.retick s.ticks.tail) := by
    refine ⟨?_, ?_⟩
    · rw [Duck.Undisturbed, hticks]
      exact hs
    · obtain rfl | rfl := hs'
      · exact .inl hsame.symm
      · right
        rw [Duck.looked_of_some ht, ← hticks]
        rfl
  rw [inReadTxn, inReadTxn, Act.bind_of_ok hon, Act.bind_of_ok hoff, Act.andFinally, Act.andFinally,
    provenanced_apply hlooks, provenanced_off]
  obtain ⟨hplain, hok, hstate⟩ := plainly_committed (g := g) run datasets (s'.retick s.ticks.tail)
  obtain ⟨hvalue, hend⟩ := committed_agrees (g := g) hrun none _ _ hbehind
  rw [hstate, hok, outcome, outcome, hplain, hvalue]
  refine congrArg (Prod.mk _) ?_
  dsimp only
  split_ifs
  · exact hend.remains
  · exact ((rollback_agrees g) _ _ hend).2.remains

/-! ### A write -/

/-- Outside a transaction the plan of the text leaves the connection where it was, however it ends. -/
theorem planDatasets_of_autocommit (loc : PondLocation) {s : Duck} (hs : s.conn.txn = none) (fate : Fate) :
    ∃ datasets, planDatasets (loc.withLineage true) (s.retick (⟨[], fate⟩ :: s.ticks)) = (.ok datasets, s) := by
  refine ⟨_, (planDatasets_reads loc _).trans (congrArg (Prod.mk _) ?_)⟩
  exact Duck.exec_select_autocommit (s := s.retick (⟨[], fate⟩ :: s.ticks)) hs

/-- The body of a write, with lineage on and off: an error and a panic leave one state, and an answer leaves the same
behind. -/
theorem writeBody_unseen (plan : Fate) (loc : PondLocation) (owned : Bool) (sql : Text) (identity : Identity)
    (traceId : Option Text) (fetch : Fetch) {s : Duck} (hs : s.conn.txn = none) :
    ∃ o o' t t', writeBody g (loc.withLineage true) owned sql identity traceId fetch
        (s.retick (⟨[], plan⟩ :: s.ticks)) = (o, t) ∧
      writeBody g (loc.withLineage false) owned sql identity traceId fetch s = (o', t') ∧ plainly o = plainly o' ∧
      t.remains = t'.remains ∧ (o'.isOk = false → t = t') := by
  obtain ⟨datasets, hplan⟩ := planDatasets_of_autocommit loc hs plan
  have hoff : planDatasets (loc.withLineage false) s = (.ok none, s) := rfl
  rw [writeBody, writeBody, Act.bind_of_ok hplan, Act.bind_of_ok hoff]
  have hrun : runWrite g sql identity traceId (loc.withLineage true).catalogName fetch s =
      runWrite g sql identity traceId (loc.withLineage false).catalogName fetch s := rfl
  rcases hw : runWrite g sql identity traceId (loc.withLineage false).catalogName fetch s with ⟨r | e | _, u⟩
  · obtain ⟨datasets', v, hannotate, hv⟩ := annotate_apply owned datasets u
    rw [Act.bind_of_ok (hrun.trans hw), Act.bind_of_ok hw, Act.bind_of_ok hannotate]
    refine ⟨_, _, _, _, rfl, rfl, ?_, ?_, fun h => by cases h⟩
    · cases datasets' <;> rfl
    · obtain rfl | rfl := hv
      · rfl
      · exact Duck.remains_exec .select u
  · rw [Act.bind_of_err (hrun.trans hw), Act.bind_of_err hw]
    exact ⟨_, _, _, _, rfl, rfl, rfl, rfl, fun _ => rfl⟩
  · rw [Act.bind_of_unwound (hrun.trans hw), Act.bind_of_unwound hw]
    exact ⟨_, _, _, _, rfl, rfl, rfl, rfl, fun _ => rfl⟩

/-- **A write answers the same with lineage on**, whatever becomes of the two statements: none of them is in its
transaction. -/
theorem write_unseen (plan : Fate) (waits : List Bool) (loc : PondLocation) (owned : Bool) (sql : Text)
    (identity : Identity) (traceId : Option Text) (fetch : Fetch) {s : Duck} (hs : s.conn.txn = none) :
    outcome (writeQuery g waits (loc.withLineage true) owned sql identity traceId fetch
        (s.retick (⟨[], plan⟩ :: s.ticks))) =
      outcome (writeQuery g waits (loc.withLineage false) owned sql identity traceId fetch s) := by
  unfold writeQuery
  cases lockWriter waits with
  | error e => rfl
  | ok =>
    dsimp only
    obtain ⟨o, o', t, t', hon, hoff, hplain, hremains, hfailed⟩ :=
      writeBody_unseen (g := g) plan loc owned sql identity traceId fetch (s := s.arm true) hs
    have hon' : runWithAbort (writeBody g (loc.withLineage true) owned sql identity traceId fetch)
        (s.retick (⟨[], plan⟩ :: s.ticks)) = (o.mapErr normalizeInterrupt, t.arm false) := by
      rw [runWithAbort_apply]
      exact congrArg (fun x : Ended EngineError QueryResult × Duck => (x.1.mapErr normalizeInterrupt, x.2.arm false)) hon
    have hoff' : runWithAbort (writeBody g (loc.withLineage false) owned sql identity traceId fetch) s =
        (o'.mapErr normalizeInterrupt, t'.arm false) := by
      rw [runWithAbort_apply, hoff]
    cases o' with
    | ok r' =>
      obtain ⟨r, rfl⟩ : ∃ r, o = .ok r := by
        cases o with
        | ok r => exact ⟨r, rfl⟩
        | err e => cases hplain
        | unwound => cases hplain
      rw [orRollback_of_ok g hon', orRollback_of_ok g hoff']
      exact Prod.ext hplain hremains
    | err e =>
      obtain rfl : o = .err e := by
        cases o with
        | ok r => cases hplain
        | err e' => exact hplain
        | unwound => cases hplain
      obtain rfl := hfailed rfl
      rw [orRollback_of_err g hon', orRollback_of_err g hoff']
    | unwound =>
      obtain rfl : o = .unwound := by
        cases o with
        | ok r => cases hplain
        | err e' => cases hplain
        | unwound => rfl
      obtain rfl := hfailed rfl
      rw [orRollback_of_unwound g hon', orRollback_of_unwound g hoff']

/-! ### All calls -/

theorem unseen_of_not_aborts {e : Extraction} (he : e.aborts = false) : Unseen e where
  readQuery g loc sql fetch s hs := by
    unfold readQuery
    split_ifs
    · rfl
    · exact outcome_runWithAbort (read_unseen (runRead_agrees g sql fetch) he loc (s := s.arm true) hs rfl)
  readArrow g loc sql stream s hs := by
    unfold readArrow
    split_ifs
    · rfl
    · exact outcome_runWithAbort (read_unseen (runReadArrow_agrees g sql stream) he loc (s := s.arm true) hs rfl)
  writeQuery _ waits loc sql identity traceId fetch _ hs :=
    write_unseen e.plan waits loc e.owned sql identity traceId fetch hs

/-! ### A statement that aborts the transaction -/

/-- A look at the catalog that aborts its transaction. -/
theorem exec_select_breaks {s : Duck} {t : Txn} (ht : s.conn.txn = some t) (harmed : s.armed = true) {fate : Fate}
    (hf : fate.breaks = true) (ticks : List Tick) :
    ∃ m, (s.retick (⟨[], fate⟩ :: ticks)).exec .select =
      (.error m, (s.setTxn (some { t with aborted := true })).retick ticks) := by
  have hbroken : (s.retick ticks).broken .select true = (s.setTxn (some { t with aborted := true })).retick ticks := by
    rw [broken_retick, Duck.broken, ht]
    rfl
  cases fate with
  | runs => cases hf
  | fails m breaks =>
    cases hf
    exact ⟨m, congrArg (Prod.mk _) hbroken⟩
  | interrupted breaks =>
    cases hf
    have hstop : (s.retick (⟨[], .interrupted true⟩ :: ticks)).stop? .select = some (interruptMessage, true) :=
      if_pos harmed
    refine ⟨interruptMessage, ?_⟩
    rw [Duck.exec, hstop]
    exact congrArg (Prod.mk _) hbroken

/-- Such a statement leaves the transaction aborted behind the two. -/
theorem lineage_aborts {e : Extraction} (he : e.aborts = true) (loc : PondLocation) {s : Duck} {t : Txn}
    (ht : s.conn.txn = some t) (ha : t.aborted = false) (harmed : s.armed = true) (ticks : List Tick) :
    ∃ (datasets : Option (List Reading)) (s' : Duck) (t' : Txn),
      (planDatasets (loc.withLineage true) >>= annotate e.owned) (s.retick (e.ticks ++ ticks)) =
        (.ok datasets, s'.retick ticks) ∧ s'.conn.txn = some t' ∧ t'.aborted = true := by
  obtain ⟨owned, plan, annotation⟩ := e
  simp only [Extraction.aborts, Bool.or_eq_true, Bool.and_eq_true, decide_eq_true_eq] at he
  rcases he with hplan | ⟨⟨rfl, rfl⟩, hannotation⟩
  · obtain ⟨m, hexec⟩ := exec_select_breaks ht harmed hplan ticks
    have hticks : Extraction.ticks ⟨owned, plan, annotation⟩ = [⟨[], plan⟩] := by
      rw [Extraction.ticks, if_neg]
      rintro ⟨rfl, -⟩
      cases hplan
    refine ⟨some [], s.setTxn (some { t with aborted := true }), _, ?_, rfl, rfl⟩
    rw [hticks, List.singleton_append, Act.bind_apply, planDatasets_reads, hexec, readings]
    exact congrFun (annotate_none (.inr rfl)) _
  · have hruns : Fate.runs.breaks = false := rfl
    obtain ⟨x, u, hexec, hu, hend⟩ := exec_select_retick ht ha harmed hruns (⟨[], annotation⟩ :: ticks)
    obtain ⟨-, r, rfl⟩ := hend.resolve_right fun h => h.1 rfl
    obtain ⟨t', ht'⟩ : ∃ t', u.conn.txn = some t' := by
      obtain rfl | rfl := hu
      · exact ⟨t, ht⟩
      · rw [Duck.looked_of_some ht]
        exact ⟨_, rfl⟩
    have harmed' : u.armed = true := by
      obtain rfl | rfl := hu
      · exact harmed
      · rwa [Duck.looked_armed]
    obtain ⟨m, hexec'⟩ := exec_select_breaks ht' harmed' hannotation ticks
    refine ⟨some [r], u.setTxn (some { t' with aborted := true }), _, ?_, rfl, rfl⟩
    have hticks : Extraction.ticks ⟨true, .runs, annotation⟩ = [⟨[], .runs⟩, ⟨[], annotation⟩] := rfl
    rw [hticks, List.cons_append, List.singleton_append, Act.bind_apply, planDatasets_reads, hexec, readings]
    dsimp only
    rw [annotate_reads, hexec']
    rfl

/-- In an aborted transaction a query is refused. -/
theorem runRead_aborted {s : Duck} {t : Txn} (ht : s.conn.txn = some t) (ha : t.aborted = true)
    (hticks : s.ticks = []) (fetch : Fetch) :
    ∃ (e : EngineError) (s' : Duck), runRead keywordGrammar "SELECT 1".toList fetch s = (.err e, s') := by
  have hread : classify "SELECT 1".toList ≠ .write := by decide +kernel
  have htrim : RustStr.trim "SELECT 1".toList ≠ [] := by decide +kernel
  have hparse : keywordGrammar.parse "SELECT 1".toList = .ok [.select] := by decide +kernel
  have hprepare : prepare keywordGrammar "SELECT 1".toList s = (.ok (some .select), s) := by
    rw [prepare, if_neg htrim, hparse]
    rfl
  have hexec : s.exec .select = (.error abortedMessage, s.advance) := by
    have hstop : s.stop? .select = none := by rw [Duck.stop?, hticks]
    have hrefuses : s.advance.refuses .select = true := by
      rw [Duck.refuses, Duck.advance_conn, ht]
      dsimp only
      rw [ha]
      rfl
    rw [Duck.exec, hstop]
    exact if_pos hrefuses
  have hexecute : Act.mapErr Errclass.classifyMessage (execute .select) s =
      (.err (Errclass.classifyMessage abortedMessage), s.advance) := by
    rw [Act.mapErr_apply, execute_apply, hexec]
    rfl
  refine ⟨Errclass.classifyMessage abortedMessage, s.advance, ?_⟩
  rw [runRead, if_neg hread, materialize]
  refine Act.bind_of_err ?_ _
  rw [Act.bind_of_ok hprepare]
  exact Act.bind_of_err hexecute _

/-- So a read on a new connection fails where one of the two statements aborted its transaction. -/
theorem read_fails_of_aborts {e : Extraction} (he : e.aborts = true) (loc : PondLocation) (fetch : Fetch) :
    (inReadTxn keywordGrammar
      (provenanced (loc.withLineage true) e.owned (runRead keywordGrammar "SELECT 1".toList fetch))
      (((Duck.fresh []).arm true).retick (behindFirst e.ticks []))).1.isOk = false := by
  obtain ⟨s, hs⟩ : ∃ s, s = (Duck.fresh []).arm true := ⟨_, rfl⟩
  obtain ⟨r, b, hb, ht, harmed⟩ : ∃ r b, s.exec (.beginTxn true) = (.ok r, b) ∧
      b.conn.txn = some (s.begun true) ∧ b.armed = true := by
    subst hs
    exact ⟨_, _, rfl, rfl, rfl⟩
  have hticks : s.ticks = [] := by rw [hs]; rfl
  have hexec := exec_behindFirst (.beginTxn true) s e.ticks
  rw [hb, hticks] at hexec
  have hbegin := ours_beginReadOnly keywordGrammar (s.retick (behindFirst e.ticks []))
  rw [hexec] at hbegin
  obtain ⟨datasets, s', t', hlooks, ht', ha'⟩ := lineage_aborts he loc ht rfl harmed []
  obtain ⟨err, s'', hrun⟩ := runRead_aborted (s := s'.retick []) ht' ha' rfl fetch
  rw [← hs, inReadTxn, Act.bind_of_ok hbegin, Act.andFinally]
  have hcommitted : committed keywordGrammar (runRead keywordGrammar "SELECT 1".toList fetch) datasets (s'.retick []) =
      (.err err, s'') := Act.bind_of_err hrun _
  have hbody := (provenanced_apply (g := keywordGrammar) hlooks (runRead keywordGrammar "SELECT 1".toList fetch)).trans
    hcommitted
  exact congrArg (fun x : Ended EngineError QueryResult × Duck => x.1.isOk) hbody

theorem isOk_readQuery_of_unseen {e : Extraction} (h : Unseen e) (g : Grammar) (loc : PondLocation) (sql : Text)
    (fetch : Fetch) {s : Duck} (hs : ∀ t ∈ s.ticks.tail, t.others = []) :
    (readQuery g (loc.withLineage true) e.owned sql fetch (s.retick (behindFirst e.ticks s.ticks))).1.isOk =
      (readQuery g (loc.withLineage false) e.owned sql fetch s).1.isOk := by
  have hvalue := (Prod.mk.inj (h.readQuery g loc sql fetch s hs)).1
  exact isOk_of_plainly hvalue

theorem isOk_readQuery {g : Grammar} {loc : PondLocation} {owned : Bool} {sql : Text} {fetch : Fetch} {s : Duck}
    (h : classify sql ≠ .write) :
    (readQuery g loc owned sql fetch s).1.isOk =
      (inReadTxn g (provenanced loc owned (runRead g sql fetch)) (s.arm true)).1.isOk := by
  rw [readQuery, if_neg h, runWithAbort_apply, isOk_mapErr]
  rfl

theorem not_aborts_of_unseen {e : Extraction} (h : Unseen e) : e.aborts = false := by
  by_contra he
  rw [Bool.not_eq_false] at he
  have hread : classify "SELECT 1".toList ≠ .write := by decide +kernel
  have hundisturbed : ∀ t ∈ (Duck.fresh []).ticks.tail, t.others = [] := nofun
  have hsame := isOk_readQuery_of_unseen h keywordGrammar ⟨"pond".toList, false⟩ "SELECT 1".toList (.done 1) hundisturbed
  have hoff : (readQuery keywordGrammar (PondLocation.withLineage ⟨"pond".toList, false⟩ false) e.owned "SELECT 1".toList
      (.done 1) (.fresh [])).1.isOk = true := by
    cases e.owned <;> decide +kernel
  have hfails := read_fails_of_aborts he ⟨"pond".toList, false⟩ (.done 1)
  rw [hoff, isOk_readQuery hread] at hsame
  exact Bool.false_ne_true (hfails.symm.trans hsame)

/-- **Lineage never changes the answer, just where neither of its statements aborts the transaction it is in.** -/
theorem lineage_unseen_iff (e : Extraction) : Unseen e ↔ e.aborts = false :=
  ⟨not_aborts_of_unseen, unseen_of_not_aborts⟩

end

/-- The extraction runs out of memory, and a text that would have been answered is refused. -/
theorem lineage_refuses_read :
    let e : Extraction := ⟨false, .fails "Out of Memory Error: failed to allocate data of size 16.0 KiB".toList true, .runs⟩
    let read (lineage : Bool) (s : Duck) := (readQuery keywordGrammar
      (PondLocation.withLineage ⟨"pond".toList, false⟩ lineage) e.owned "SELECT 1".toList (.done 1) s).1
    read false (.fresh []) = .ok ⟨some ⟨some 0, some 0⟩, ⟨1, none, none⟩⟩ ∧
      read true ((Duck.fresh []).retick (behindFirst e.ticks [])) = .err (.transactionControl abortedMessage) := by
  decide +kernel

end Latiq.EngineDuckdb
