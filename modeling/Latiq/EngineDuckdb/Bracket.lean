import Latiq.EngineDuckdb.DuckEngine

/-!
# The brackets, step by step

The specification of the pieces of `exec.rs`: what each does to a connection,
so that proofs about the brackets do not open them again.

## What is proved

* `ours_begin`, `ours_commit`, `rollback_apply`, `maxSnapshot_apply` — the texts
  the adapter writes, as the statements they are.
* `inWriteTxn_spec` — **the write bracket, outcome by outcome** (`WriteTxn`): which
  statements ran around the body, and where it stopped.
* `inReadTxn_spec` — the same for the read bracket (`ReadTxn`).
* `writeQuery_spec`, `writeBody_spec` — a `write_query` around its bracket.
* `runAll_cons_cases` — a text behind its first statement.
* `materialize_runs`, `executeBatch_runs` — a caller's text runs its own statements
  and nothing else.
-/

namespace Latiq.EngineDuckdb

open SqlLex (Text)
open Unwind

variable (g : Grammar)

/-! ### Our own statements -/

theorem execute_apply (st : Stmt) (s : Duck) : execute st s = (.ofExcept (s.exec st).1, (s.exec st).2) := rfl

theorem execute_of_ok {st : Stmt} {s t : Duck} {r : Reading} (h : s.exec st = (.ok r, t)) : execute st s = (.ok r, t) := by
  rw [execute_apply, h]
  rfl

theorem execute_of_error {st : Stmt} {s t : Duck} {m : Text} (h : s.exec st = (.error m, t)) :
    execute st s = (.err m, t) := by
  rw [execute_apply, h]
  rfl

theorem executeAll_single (st : Stmt) (s : Duck) :
    executeAll [st] s = (match (s.exec st).1 with
      | .ok _ => .ok ()
      | .error e => .err e, (s.exec st).2) := by
  rw [executeAll, Act.bind_apply, execute_apply]
  rcases (s.exec st).1 with e | r <;> rfl

/-- A text of one statement runs that statement. -/
theorem executeBatch_single {sql : Text} {st : Stmt} (h : g.parse sql = .ok [st]) :
    executeBatch g sql = executeAll [st] := by
  rw [executeBatch, h]

/-- A statement of ours: its failure is `Engine`, whatever its class. -/
theorem mapErr_engine_apply {sql : Text} {st : Stmt} (h : g.parse sql = .ok [st]) (s : Duck) :
    Act.mapErr EngineError.engine (executeBatch g sql) s = (match (s.exec st).1 with
      | .ok _ => .ok ()
      | .error e => .err (.engine e), (s.exec st).2) := by
  rw [Act.mapErr_apply, executeBatch_single g h, executeAll_single]
  rcases (s.exec st).1 with e | r <;> rfl

theorem ours_begin (s : Duck) :
    ours g "BEGIN" s = (match (s.exec (.beginTxn false)).1 with
      | .ok _ => .ok ()
      | .error e => .err (.engine e), (s.exec (.beginTxn false)).2) :=
  mapErr_engine_apply g g.parse_begin s

theorem ours_commit (s : Duck) :
    ours g "COMMIT" s = (match (s.exec .commit).1 with
      | .ok _ => .ok ()
      | .error e => .err (.engine e), (s.exec .commit).2) :=
  mapErr_engine_apply g g.parse_commit s

theorem ours_beginReadOnly (s : Duck) :
    ours g "BEGIN TRANSACTION READ ONLY" s = (match (s.exec (.beginTxn true)).1 with
      | .ok _ => .ok ()
      | .error e => .err (.engine e), (s.exec (.beginTxn true)).2) :=
  mapErr_engine_apply g g.parse_beginReadOnly s

/-- The attribution statement sets the note it was built from. -/
theorem setMessage_apply (catalog author op extra : Text) (s : Duck) :
    Act.mapErr EngineError.engine (executeBatch g (callText catalog author op extra)) s =
      (match (s.exec (.setCommitMessage ⟨author, op, extra⟩)).1 with
        | .ok _ => .ok ()
        | .error e => .err (.engine e), (s.exec (.setCommitMessage ⟨author, op, extra⟩)).2) :=
  mapErr_engine_apply g (g.parse_callText catalog author op extra) s

/-- A rollback is tried, and never fails the call. -/
theorem rollback_apply (s : Duck) : rollback g s = (.ok (), (s.exec .rollback).2) := by
  rw [rollback, executeBatch_single g g.parse_rollback, Act.bind_apply, Act.attempt, executeAll_single]
  rcases (s.exec .rollback).1 with e | r <;> rfl

/-- The newest snapshot as a read gives it: `none` also where the read failed. -/
def readLatest (x : Except Text Reading) : Option ℕ :=
  match x with
  | .ok r => r.latest
  | .error _ => none

theorem maxSnapshot_apply (s : Duck) : maxSnapshot s = (.ok (readLatest (s.exec .select).1), (s.exec .select).2) := by
  rw [maxSnapshot, Act.bind_apply, Act.attempt, execute_apply]
  rcases (s.exec .select).1 with e | r <;> rfl

theorem orRollback_of_ok {α : Type} {p : Act Duck EngineError α} {s t : Duck} {a : α} (h : p s = (.ok a, t)) :
    orRollback g p s = (.ok a, t) := by
  rw [orRollback, Act.bind_apply, Act.attempt, h]
  rfl

theorem orRollback_of_err {α : Type} {p : Act Duck EngineError α} {s t : Duck} {e : EngineError}
    (h : p s = (.err e, t)) : orRollback g p s = (.err e, (t.exec .rollback).2) := by
  rw [orRollback, Act.bind_apply, Act.attempt, h]
  simp only [Act.bind_apply, rollback_apply, Act.fail_apply]

theorem orRollback_of_unwound {α : Type} {p : Act Duck EngineError α} {s t : Duck} (h : p s = (.unwound, t)) :
    orRollback g p s = (.unwound, t) := by
  rw [orRollback, Act.bind_apply, Act.attempt, h]

/-! ### A caller's text runs its own statements -/

/-- A computation that reaches the connection only by statements of the class `P`. -/
structure Body (P : Stmt → Prop) (α : Type) where
  act : Act Duck EngineError α
  runs : Act.Keeps (Duck.RunsBy P) act

theorem execute_runs {P : Stmt → Prop} {st : Stmt} (h : P st) : Act.Keeps (Duck.RunsBy P) (execute st) :=
  fun s => .exec h s

theorem executeAll_runs {P : Stmt → Prop} {sts : List Stmt} (h : ∀ st ∈ sts, P st) :
    Act.Keeps (Duck.RunsBy P) (executeAll sts) := by
  induction sts with
  | nil => exact Act.keeps_pure ()
  | cons st sts ih =>
    exact (execute_runs (h st (List.mem_cons_self ..))).bind fun _ => ih fun st' hst =>
      h st' (List.mem_cons_of_mem _ hst)

theorem executeBatch_runs (sql : Text) : Act.Keeps (Duck.RunsBy (g.Has sql)) (executeBatch g sql) := by
  unfold executeBatch
  split
  · exact Act.keeps_fail _
  · rename_i sts h
    exact executeAll_runs fun st hst => ⟨sts, h, hst⟩

theorem prepareAll_cons_cons (st st' : Stmt) (sts : List Stmt) :
    prepareAll (st :: st' :: sts) = (execute st >>= fun _ => prepareAll (st' :: sts)) := rfl

theorem prepareAll_runs {P : Stmt → Prop} {sts : List Stmt} (h : ∀ st ∈ sts, P st) :
    Act.Keeps (Duck.RunsBy P) (prepareAll sts) := by
  induction sts with
  | nil => exact Act.keeps_pure none
  | cons st sts ih =>
    cases sts with
    | nil => exact Act.keeps_pure _
    | cons st' sts =>
      exact (execute_runs (h st (List.mem_cons_self ..))).bind fun _ => ih fun st'' hst =>
        h st'' (List.mem_cons_of_mem _ hst)

/-- The statement that is left to run is the last of the text. -/
theorem prepareAll_last {sts : List Stmt} {s t : Duck} {st : Stmt}
    (h : prepareAll sts s = (.ok (some st), t)) : sts.getLast? = some st := by
  induction sts generalizing s with
  | nil => simp [prepareAll] at h
  | cons st' sts ih =>
    cases sts with
    | nil =>
      simp only [prepareAll, Act.pure_apply, Prod.mk.injEq, Ended.ok.injEq, Option.some.injEq] at h
      rw [h.1, List.getLast?_singleton]
    | cons st'' sts =>
      rw [prepareAll_cons_cons, Act.bind_eq_ok] at h
      obtain ⟨_, u, -, h⟩ := h
      rw [List.getLast?_cons_cons]
      exact ih h

theorem prepare_runs (sql : Text) : Act.Keeps (Duck.RunsBy (g.Has sql)) (prepare g sql) := by
  unfold prepare
  split
  · exact Act.keeps_fail _
  · refine Act.Keeps.mapErr ?_ _
    split
    · exact Act.keeps_fail _
    · rename_i sts h
      exact prepareAll_runs fun st hst => ⟨sts, h, hst⟩

/-- What is prepared is a statement of the text. -/
theorem prepare_has {sql : Text} {s t : Duck} {st : Stmt} (h : prepare g sql s = (.ok (some st), t)) :
    g.Has sql st := by
  unfold prepare at h
  split at h
  · simp at h
  · rw [Act.mapErr_apply, Prod.mk.injEq, Ended.mapErr_eq_ok] at h
    cases hp : g.parse sql with
    | error e => simp [hp] at h
    | ok sts =>
      simp only [hp] at h
      exact ⟨sts, hp, List.mem_of_getLast? (prepareAll_last (Prod.ext h.1 h.2))⟩

/-- Run the statements of a text in order, and give what the last of them read. -/
def runAll : List Stmt → Act Duck Text (Option Reading)
  | [] => pure none
  | [st] => do
    let r ← execute st
    pure (some r)
  | st :: sts => do
    let _ ← execute st
    runAll sts

theorem runAll_cons_cons (st st' : Stmt) (sts : List Stmt) :
    runAll (st :: st' :: sts) = (execute st >>= fun _ => runAll (st' :: sts)) := rfl

/-- Where its first statement fails, the text does. -/
theorem runAll_cons_of_error {st : Stmt} {s t : Duck} {m : Text} (h : s.exec st = (.error m, t)) (sts : List Stmt) :
    runAll (st :: sts) s = (.err m, t) := by
  cases sts with
  | nil => exact Act.bind_of_err (execute_of_error h) _
  | cons st' sts => exact Act.bind_of_err (execute_of_error h) _

theorem runAll_singleton_of_ok {st : Stmt} {s t : Duck} {r : Reading} (h : s.exec st = (.ok r, t)) :
    runAll [st] s = (.ok (some r), t) := Act.bind_of_ok (execute_of_ok h) _

theorem runAll_cons_cons_of_ok {st : Stmt} {s t : Duck} {r : Reading} (h : s.exec st = (.ok r, t)) (st' : Stmt)
    (sts : List Stmt) : runAll (st :: st' :: sts) s = runAll (st' :: sts) t := by
  rw [runAll_cons_cons, Act.bind_of_ok (execute_of_ok h)]

/-- Behind its first statement a text ends, or goes on. -/
theorem runAll_cons_cases {st : Stmt} {sts : List Stmt} {s s' t : Duck} {r : Reading} {o : Ended Text (Option Reading)}
    (hx : s.exec st = (.ok r, s')) (h : runAll (st :: sts) s = (o, t)) :
    (sts = [] ∧ o = .ok (some r) ∧ t = s') ∨ runAll sts s' = (o, t) := by
  cases sts with
  | nil =>
    rw [runAll_singleton_of_ok hx] at h
    cases h
    exact .inl ⟨rfl, rfl, rfl⟩
  | cons st' sts => exact .inr ((runAll_cons_cons_of_ok hx st' sts).symm.trans h)

/-- Preparing a text runs all of it but the last statement. -/
theorem prepareAll_then_last (sts : List Stmt) :
    (prepareAll sts >>= fun
      | none => pure none
      | some st => execute st >>= fun r => pure (some r)) = runAll sts := by
  induction sts with
  | nil => rfl
  | cons st sts ih =>
    cases sts with
    | nil => rfl
    | cons st' sts => rw [prepareAll_cons_cons, Act.bind_assoc, runAll_cons_cons, ih]

theorem runAll_runs {P : Stmt → Prop} {sts : List Stmt} (h : ∀ st ∈ sts, P st) :
    Act.Keeps (Duck.RunsBy P) (runAll sts) := by
  induction sts with
  | nil => exact Act.keeps_pure none
  | cons st sts ih =>
    cases sts with
    | nil => exact (execute_runs (h st (List.mem_singleton_self st))).bind fun _ => Act.keeps_pure _
    | cons st' sts =>
      exact (execute_runs (h st (List.mem_cons_self ..))).bind fun _ => ih fun st'' hst =>
        h st'' (List.mem_cons_of_mem _ hst)

theorem fetchRows_runs {P : Stmt → Prop} (fetch : Fetch) : Act.Keeps (Duck.RunsBy P) (fetchRows fetch) := by
  cases fetch with
  | done n => exact Act.keeps_pure n
  | fails msg => exact Act.keeps_fail _
  | unwinds => exact Act.keeps_unwind

theorem materialize_runs (sql : Text) (fetch : Fetch) :
    Act.Keeps (Duck.RunsBy (g.Has sql)) (materialize g sql fetch) := by
  refine (prepare_runs g sql).bind_of_value fun s o t ho => ?_
  cases o with
  | none => exact .refl
  | some st =>
    have hrun := (execute_runs (prepare_has g ho)).mapErr Errclass.classifyMessage
    exact (hrun.bind fun r => (fetchRows_runs fetch).bind fun n => Act.keeps_pure _) t

/-- The body of a `write_query`. -/
def materializeBody (sql : Text) (fetch : Fetch) : Body (g.Has sql) (Option Reading × ℕ) :=
  ⟨materialize g sql fetch, materialize_runs g sql fetch⟩

/-- The body of a `pull_catalog`. -/
def pullBody (query : Text) : Body (g.Has query) Unit :=
  ⟨Act.mapErr Errclass.classifyMessage (executeBatch g query), (executeBatch_runs g query).mapErr _⟩

/-! ### The write bracket -/

/-- `WriteTxn note body s o t`: the write bracket around `body`, with this note, takes `s` to `t` and
ends as `o`. The states are named by the statement behind which they are. -/
inductive WriteTxn {α : Type} (note : Note) (body : Act Duck EngineError α) (s : Duck) :
    Ended EngineError (α × Option ℕ) → Duck → Prop where
  /-- `BEGIN` fails. -/
  | beginFails {m : Text} {b : Duck} :
      (s.exec .select).2.exec (.beginTxn false) = (.error m, b) → WriteTxn note body s (.err (.engine m)) b
  /-- The body fails, and is rolled back. -/
  | bodyFails {r : Reading} {b u : Duck} {e : EngineError} :
      (s.exec .select).2.exec (.beginTxn false) = (.ok r, b) → body b = (.err e, u) →
      WriteTxn note body s (.err e) (u.exec .rollback).2
  /-- The body panics, and nothing is rolled back. -/
  | bodyUnwinds {r : Reading} {b u : Duck} :
      (s.exec .select).2.exec (.beginTxn false) = (.ok r, b) → body b = (.unwound, u) →
      WriteTxn note body s .unwound u
  /-- `set_commit_message` fails, and the body is rolled back. -/
  | callFails {r : Reading} {b u c : Duck} {a : α} {m : Text} :
      (s.exec .select).2.exec (.beginTxn false) = (.ok r, b) → body b = (.ok a, u) →
      u.exec (.setCommitMessage note) = (.error m, c) → WriteTxn note body s (.err (.engine m)) (c.exec .rollback).2
  /-- `COMMIT` fails, and the body is rolled back. -/
  | commitFails {r r' : Reading} {b u c d : Duck} {a : α} {m : Text} :
      (s.exec .select).2.exec (.beginTxn false) = (.ok r, b) → body b = (.ok a, u) →
      u.exec (.setCommitMessage note) = (.ok r', c) → c.exec .commit = (.error m, d) →
      WriteTxn note body s (.err (.engine m)) (d.exec .rollback).2
  /-- The transaction commits, and the newest snapshot is reported if it is newer than the one before. -/
  | commits {r r' r'' : Reading} {b u c d : Duck} {a : α} :
      (s.exec .select).2.exec (.beginTxn false) = (.ok r, b) → body b = (.ok a, u) →
      u.exec (.setCommitMessage note) = (.ok r', c) → c.exec .commit = (.ok r'', d) →
      WriteTxn note body s
        (.ok (a, if later (readLatest (d.exec .select).1) (readLatest (s.exec .select).1) then
          readLatest (d.exec .select).1 else none)) (d.exec .select).2

/-- **The write bracket, outcome by outcome.** -/
theorem inWriteTxn_spec {α : Type} (identity : Identity) (traceId : Option Text) (catalog op : Text)
    (body : Act Duck EngineError α) (s : Duck) {o : Ended EngineError (α × Option ℕ)} {t : Duck}
    (h : inWriteTxn g identity traceId catalog op body s = (o, t)) :
    WriteTxn (noteOf identity traceId op) body s o t := by
  rw [inWriteTxn, Act.bind_of_ok (maxSnapshot_apply s), Act.bind_apply, ours_begin] at h
  rcases hb : (s.exec .select).2.exec (.beginTxn false) with ⟨m | r, b⟩ <;> rw [hb] at h
  · cases h
    exact .beginFails hb
  simp only at h
  rcases hu : body b with ⟨a | e | _, u⟩
  · rw [Act.bind_of_ok (orRollback_of_ok g hu)] at h
    have hcall := setMessage_apply g catalog (author identity) op (extraInfo identity traceId) u
    rcases hc : u.exec (.setCommitMessage (noteOf identity traceId op)) with ⟨m | r', c⟩ <;>
      rw [show Note.mk (author identity) op (extraInfo identity traceId) = noteOf identity traceId op from rfl, hc]
        at hcall
    · rw [Act.bind_of_err (orRollback_of_err g hcall)] at h
      cases h
      exact .callFails hb hu hc
    · rw [Act.bind_of_ok (orRollback_of_ok g hcall)] at h
      have hcommit := ours_commit g c
      rcases hd : c.exec .commit with ⟨m | r'', d⟩ <;> rw [hd] at hcommit
      · rw [Act.bind_of_err (orRollback_of_err g hcommit)] at h
        cases h
        exact .commitFails hb hu hc hd
      · rw [Act.bind_of_ok (orRollback_of_ok g hcommit), Act.bind_of_ok (maxSnapshot_apply d)] at h
        cases h
        exact .commits hb hu hc hd
  · rw [Act.bind_of_err (orRollback_of_err g hu)] at h
    cases h
    exact .bodyFails hb hu
  · rw [Act.bind_of_unwound (orRollback_of_unwound g hu)] at h
    cases h
    exact .bodyUnwinds hb hu

/-! ### The read bracket -/

/-- `ReadTxn f s o t`: the read bracket around `f` takes `s` to `t` and ends as `o`. -/
inductive ReadTxn {α : Type} (f : Act Duck EngineError α) (s : Duck) : Ended EngineError α → Duck → Prop where
  /-- `BEGIN TRANSACTION READ ONLY` fails. -/
  | beginFails {m : Text} {b : Duck} :
      s.exec (.beginTxn true) = (.error m, b) → ReadTxn f s (.err (.engine m)) b
  /-- `f` fails or panics, and the destructor rolls back. -/
  | bodyEnds {r : Reading} {b u : Duck} {x : Ended EngineError α} :
      s.exec (.beginTxn true) = (.ok r, b) → f b = (x, u) → x.isOk = false → ReadTxn f s x (u.exec .rollback).2
  /-- `COMMIT` fails, and the destructor rolls back. -/
  | commitFails {r : Reading} {b u d : Duck} {a : α} {m : Text} :
      s.exec (.beginTxn true) = (.ok r, b) → f b = (.ok a, u) → u.exec .commit = (.error m, d) →
      ReadTxn f s (.err (.engine m)) (d.exec .rollback).2
  /-- The transaction commits. -/
  | commits {r r' : Reading} {b u d : Duck} {a : α} :
      s.exec (.beginTxn true) = (.ok r, b) → f b = (.ok a, u) → u.exec .commit = (.ok r', d) →
      ReadTxn f s (.ok a) d

/-- **The read bracket, outcome by outcome.** -/
theorem inReadTxn_spec {α : Type} (f : Act Duck EngineError α) (s : Duck) {o : Ended EngineError α} {t : Duck}
    (h : inReadTxn g f s = (o, t)) : ReadTxn f s o t := by
  have hbegin := ours_beginReadOnly g s
  rcases hb : s.exec (.beginTxn true) with ⟨m | r, b⟩ <;> rw [hb] at hbegin
  · rw [inReadTxn, Act.bind_of_err hbegin] at h
    cases h
    exact .beginFails hb
  rw [inReadTxn, Act.bind_of_ok hbegin] at h
  simp only [Act.andFinally] at h
  rcases hu : f b with ⟨a | e | _, u⟩
  · rw [Act.bind_of_ok hu] at h
    have hcommit := ours_commit g u
    rcases hd : u.exec .commit with ⟨m | r', d⟩ <;> rw [hd] at hcommit
    · rw [Act.bind_of_err hcommit] at h
      simp only [Ended.isOk, Bool.false_eq_true, if_false, rollback_apply] at h
      cases h
      exact .commitFails hb hu hd
    · rw [Act.bind_of_ok hcommit] at h
      cases h
      exact .commits hb hu hd
  · rw [Act.bind_of_err hu] at h
    simp only [Ended.isOk, Bool.false_eq_true, if_false, rollback_apply] at h
    cases h
    exact .bodyEnds hb hu rfl
  · rw [Act.bind_of_unwound hu] at h
    simp only [Ended.isOk, Bool.false_eq_true, if_false, rollback_apply] at h
    cases h
    exact .bodyEnds hb hu rfl

/-! ### A write around its bracket -/

/-- The state behind `plan_datasets`. -/
def planned (loc : PondLocation) (s : Duck) : Duck := if loc.lineage then (s.exec .select).2 else s

/-- The extraction never fails, and leaves the connection behind one query at most. -/
theorem planDatasets_apply (loc : PondLocation) (s : Duck) : ∃ ds, planDatasets loc s = (.ok ds, planned loc s) := by
  unfold planDatasets planned
  split
  · unfold referencedTables
    simp only [Act.bind_apply, Act.attempt, execute_apply]
    rcases (s.exec .select).1 with e | r
    · exact ⟨_, rfl⟩
    · exact ⟨_, rfl⟩
  · exact ⟨none, rfl⟩

theorem annotateSchemas_apply (owned : Bool) (ds : List Reading) (s : Duck) :
    ∃ ds' t, annotateSchemas owned ds s = (.ok ds', t) ∧ (t = s ∨ t = (s.exec .select).2) := by
  unfold annotateSchemas
  split
  · exact ⟨ds, s, rfl, .inl rfl⟩
  · simp only [Act.bind_apply, Act.attempt, execute_apply]
    rcases (s.exec .select).1 with e | r
    · exact ⟨_, _, rfl, .inr rfl⟩
    · exact ⟨_, _, rfl, .inr rfl⟩

/-- So does the annotation. -/
theorem annotate_apply (owned : Bool) (ds : Option (List Reading)) (s : Duck) :
    ∃ ds' t, annotate owned ds s = (.ok ds', t) ∧ (t = s ∨ t = (s.exec .select).2) := by
  cases ds with
  | none => exact ⟨none, s, rfl, .inl rfl⟩
  | some ds =>
    obtain ⟨ds', t, h, ht⟩ := annotateSchemas_apply owned ds s
    rw [annotate, Act.bind_of_ok h]
    exact ⟨some ds', t, rfl, ht⟩

/-- The extraction, the bracket around the text and the annotation: an error and a panic are the
bracket's. -/
theorem writeBody_spec (loc : PondLocation) (owned : Bool) (sql : Text) (identity : Identity) (traceId : Option Text)
    (fetch : Fetch) {s t : Duck} {o : Ended EngineError QueryResult}
    (h : writeBody g loc owned sql identity traceId fetch s = (o, t)) :
    ∃ x u, WriteTxn (noteOf identity traceId "write_query".toList) (materialize g sql fetch) (planned loc s) x u ∧
      ((∃ a res, x = .ok a ∧ o = .ok res ∧ (t = u ∨ t = (u.exec .select).2)) ∨
        (∃ e, x = .err e ∧ o = .err e ∧ t = u) ∨ (x = .unwound ∧ o = .unwound ∧ t = u)) := by
  obtain ⟨ds, hds⟩ := planDatasets_apply loc s
  rw [writeBody, Act.bind_of_ok hds] at h
  rcases hx : inWriteTxn g identity traceId loc.catalogName "write_query".toList (materialize g sql fetch)
    (planned loc s) with ⟨⟨⟨r, n⟩, rep⟩ | e | _, u⟩
  · refine ⟨_, u, inWriteTxn_spec g identity traceId _ _ _ _ hx, .inl ?_⟩
    have hres : ∃ res, runWrite g sql identity traceId loc.catalogName fetch (planned loc s) = (.ok res, u) := by
      rw [runWrite, Act.bind_of_ok hx]
      cases rep <;> exact ⟨_, rfl⟩
    obtain ⟨res, hres⟩ := hres
    obtain ⟨ds', v, hann, hv⟩ := annotate_apply owned ds u
    rw [Act.bind_of_ok hres, Act.bind_of_ok hann] at h
    cases h
    exact ⟨_, _, rfl, rfl, hv⟩
  · refine ⟨_, u, inWriteTxn_spec g identity traceId _ _ _ _ hx, .inr (.inl ⟨e, rfl, ?_⟩)⟩
    have hres : runWrite g sql identity traceId loc.catalogName fetch (planned loc s) = (.err e, u) := by
      rw [runWrite, Act.bind_of_err hx]
    rw [Act.bind_of_err hres] at h
    cases h
    exact ⟨rfl, rfl⟩
  · refine ⟨_, u, inWriteTxn_spec g identity traceId _ _ _ _ hx, .inr (.inr ⟨rfl, ?_⟩)⟩
    have hres : runWrite g sql identity traceId loc.catalogName fetch (planned loc s) = (.unwound, u) := by
      rw [runWrite, Act.bind_of_unwound hx]
    rw [Act.bind_of_unwound hres] at h
    cases h
    exact ⟨rfl, rfl⟩

theorem runWithAbort_apply {α : Type} (f : Act Duck EngineError α) (s : Duck) :
    runWithAbort f s = ((f (s.arm true)).1.mapErr normalizeInterrupt, (f (s.arm true)).2.arm false) := rfl

/-- **A write**: it gives up while it waits, or runs its body under the watcher; and after an error it
rolls back once more when the watcher is gone. -/
theorem writeQuery_spec (waits : List Bool) (loc : PondLocation) (owned : Bool) (sql : Text) (identity : Identity)
    (traceId : Option Text) (fetch : Fetch) {s t : Duck} {o : Ended EngineError QueryResult}
    (h : writeQuery g waits loc owned sql identity traceId fetch s = (o, t)) :
    (∃ e, lockWriter waits = .error e ∧ o = .err e ∧ t = s) ∨
      (lockWriter waits = .ok () ∧ ∃ x u, writeBody g loc owned sql identity traceId fetch (s.arm true) = (x, u) ∧
        ((∃ r, x = .ok r ∧ o = .ok r ∧ t = u.arm false) ∨
          (∃ e, x = .err e ∧ o = .err (normalizeInterrupt e) ∧ t = ((u.arm false).exec .rollback).2) ∨
          (x = .unwound ∧ o = .unwound ∧ t = u.arm false))) := by
  unfold writeQuery at h
  rcases hl : lockWriter waits with e | ⟨⟩ <;> rw [hl] at h
  · cases h
    exact .inl ⟨e, rfl, rfl, rfl⟩
  · refine .inr ⟨rfl, ?_⟩
    simp only at h
    rcases hx : writeBody g loc owned sql identity traceId fetch (s.arm true) with ⟨r | e | _, u⟩
    · have hrun : runWithAbort (writeBody g loc owned sql identity traceId fetch) s = (.ok r, u.arm false) := by
        rw [runWithAbort_apply, hx]
        rfl
      rw [orRollback_of_ok g hrun] at h
      cases h
      exact ⟨_, u, rfl, .inl ⟨r, rfl, rfl, rfl⟩⟩
    · have hrun : runWithAbort (writeBody g loc owned sql identity traceId fetch) s =
          (.err (normalizeInterrupt e), u.arm false) := by
        rw [runWithAbort_apply, hx]
        rfl
      rw [orRollback_of_err g hrun] at h
      cases h
      exact ⟨_, u, rfl, .inr (.inl ⟨e, rfl, rfl, rfl⟩)⟩
    · have hrun : runWithAbort (writeBody g loc owned sql identity traceId fetch) s = (.unwound, u.arm false) := by
        rw [runWithAbort_apply, hx]
        rfl
      rw [orRollback_of_unwound g hrun] at h
      cases h
      exact ⟨_, u, rfl, .inr (.inr ⟨rfl, rfl, rfl⟩)⟩

end Latiq.EngineDuckdb
