import Latiq.EngineDuckdb.Bracket

/-!
# The writer connection between calls

A pond has one writer connection, and every `write_query` and `pull_catalog` runs
on it, one after another. A call finds the connection as the last one left it,
the pond as anybody left it, and a schedule of its own.

## What is proved

* `autocommit_of_ok`, `autocommit_of_error` — the write bracket leaves no
  transaction behind when it commits, and none when it fails with no watcher
  armed.
* `visible_of_error` — what a bracket that failed leaves behind is what the
  body's own statements left behind.
* `writer_left_well_iff` — **over every run of calls** the connection is in
  autocommit after each of them, and a call that returned an error has left
  behind only what its text committed, exactly when no call panics while a
  transaction is open.
* `panic_leaves_transaction_open` — the rows of an insert panic while they are
  converted; the transaction stays open, and the next write fails for it.
-/

namespace Latiq.EngineDuckdb

open SqlLex (Text)
open Unwind

/-! ### One bracket -/

section Bracket

variable {α : Type} {note : Note}

theorem autocommit_of_ok {body : Act Duck EngineError α} {s t : Duck} {a : α × Option ℕ}
    (h : WriteTxn note body s (.ok a) t) : t.conn.txn = none := by
  cases h with
  | commits hb hu hc hd =>
    obtain ⟨x, -, rfl⟩ := Duck.exec_commit_ok hd
    exact (Duck.exec_select_txn _).2 rfl

/-- A bracket that fails rolls back; with no watcher armed the `ROLLBACK` cannot be interrupted. -/
theorem autocommit_of_error {P : Stmt → Prop} (body : Body P α) {s t : Duck} {e : EngineError}
    (h : WriteTxn note body.act s (.err e) t) (hs : s.conn.txn = none) (ha : s.armed = false) : t.conn.txn = none := by
  have harm {st : Stmt} {u v : Duck} {x : Except Text Reading} (hx : u.exec st = (x, v)) : v.armed = u.armed := by
    rw [← Duck.exec_armed st u, hx]
  have hb' {r : Reading} {b : Duck} (hb : (s.exec .select).2.exec (.beginTxn false) = (.ok r, b)) : b.armed = false := by
    rw [harm hb, Duck.exec_armed, ha]
  have hbody {b u : Duck} {x : Ended EngineError α} (hu : body.act b = (x, u)) : u.armed = b.armed := by
    have := (body.runs b).armed
    rwa [hu] at this
  cases h with
  | beginFails hb =>
    have hsel := (s.exec_select_txn).2 hs
    rw [Duck.exec_begin_error hsel hb, Duck.advance_conn, hsel]
  | bodyFails hb hu =>
    rw [Duck.exec_rollback_unarmed (by rw [hbody hu, hb' hb]), Duck.setTxn_txn]
  | callFails hb hu hc =>
    rw [Duck.exec_rollback_unarmed (by rw [harm hc, hbody hu, hb' hb]), Duck.setTxn_txn]
  | commitFails hb hu hc hd =>
    rw [Duck.exec_rollback_unarmed (by rw [harm hd, harm hc, hbody hu, hb' hb]), Duck.setTxn_txn]

/-- What a failed bracket leaves behind is what statements of the body left behind. -/
theorem visible_of_error {P : Stmt → Prop} (body : Body P α) {s t : Duck} {e : EngineError}
    (h : WriteTxn note body.act s (.err e) t) :
    ∃ b u, b.visible = s.visible ∧ Duck.RunsBy P b u ∧ t.visible = u.visible := by
  have hb' {r : Reading} {b : Duck} (hb : (s.exec .select).2.exec (.beginTxn false) = (.ok r, b)) :
      b.visible = s.visible := by
    have := (s.exec .select).2.visible_exec_beginTxn false
    rwa [hb, Duck.visible_exec_select] at this
  have hbody {b u : Duck} {x : Ended EngineError α} (hu : body.act b = (x, u)) : Duck.RunsBy P b u := by
    have := body.runs b
    rwa [hu] at this
  cases h with
  | beginFails hb =>
    refine ⟨s, s, rfl, .refl, ?_⟩
    rw [Duck.visible_of_exec_error hb, Duck.visible_exec_select]
  | bodyFails hb hu =>
    exact ⟨_, _, hb' hb, hbody hu, Duck.visible_exec_rollback _⟩
  | callFails hb hu hc =>
    refine ⟨_, _, hb' hb, hbody hu, ?_⟩
    rw [Duck.visible_exec_rollback, Duck.visible_of_exec_error hc]
  | @commitFails r r' b u c d a m hb hu hc hd =>
    refine ⟨_, _, hb' hb, hbody hu, ?_⟩
    have hcu := u.visible_exec_setCommitMessage note
    rw [hc] at hcu
    rw [Duck.visible_exec_rollback, Duck.visible_of_exec_error hd, hcu]

/-- A bracket unwinds from a panic of its body, and leaves the connection as the body did. -/
theorem panics_iff {body : Act Duck EngineError α} {s t : Duck} {o : Ended EngineError (α × Option ℕ)}
    (h : WriteTxn note body s o t) :
    (∃ r b u, (s.exec .select).2.exec (.beginTxn false) = (.ok r, b) ∧ body b = (.unwound, u) ∧ u.conn.txn ≠ none) ↔
      o = .unwound ∧ t.conn.txn ≠ none := by
  constructor
  · rintro ⟨r, b, u, hb, hu, hopen⟩
    cases h with
    | beginFails hb' => rw [hb'] at hb; cases hb
    | bodyUnwinds hb' hu' =>
      rw [hb'] at hb
      cases hb
      rw [hu'] at hu
      cases hu
      exact ⟨rfl, hopen⟩
    | bodyFails hb' hu' | callFails hb' hu' | commitFails hb' hu' | commits hb' hu' =>
      rw [hb'] at hb
      cases hb
      rw [hu'] at hu
      cases hu
  · rintro ⟨rfl, hopen⟩
    cases h with
    | bodyUnwinds hb hu => exact ⟨_, _, _, hb, hu, hopen⟩

end Bracket

/-! ### Attaching and detaching -/

/-- A statement on the databases and secrets of the instance. -/
def Attaches (st : Stmt) : Prop := ∃ x, st = .attach x

/-- Such statements open no transaction and leave nothing behind in the pond or the session. -/
theorem attaches_quiet {s t : Duck} (h : Duck.RunsBy Attaches s t) :
    (s.conn.txn = none → t.conn.txn = none) ∧ t.visible = s.visible ∧ t.armed = s.armed := by
  refine h.invariant (I := fun t =>
    (s.conn.txn = none → t.conn.txn = none) ∧ t.visible = s.visible ∧ t.armed = s.armed) ?_ ⟨id, rfl, rfl⟩
  rintro _ u ⟨x, rfl⟩ ⟨htxn, hvis, harm⟩
  refine ⟨fun hs => ?_, ?_, by rw [Duck.exec_armed, harm]⟩
  · rcases u.exec_cases (.attach x) with ⟨msg, breaks, -, he⟩ | ⟨-, -, he⟩ | ⟨-, -, he⟩ <;> rw [he]
    · rw [Duck.broken_of_autocommit (s := u.advance) (htxn hs)]
      exact htxn hs
    · exact htxn hs
    · exact htxn hs
  · rcases u.exec_cases (.attach x) with ⟨msg, breaks, -, he⟩ | ⟨-, -, he⟩ | ⟨-, -, he⟩ <;> rw [he, ← hvis]
    · simp
    · simp
    · exact u.visible_advance

theorem loadAll_runs (load : List (Text × Text)) : Act.Keeps (Duck.RunsBy Attaches) (loadAll load) := by
  induction load with
  | nil => exact Act.keeps_pure ()
  | cons p rest ih => exact ((execute_runs ⟨p.2, rfl⟩).mapErr _).bind fun _ => ih

theorem createSecrets_runs (secrets : List (Text × Text)) :
    Act.Keeps (Duck.RunsBy Attaches) (createSecrets secrets) := by
  induction secrets with
  | nil => exact Act.keeps_pure ()
  | cons p rest ih => exact ((execute_runs ⟨p.2, rfl⟩).mapErr _).bind fun _ => ih

theorem teardownCatalog_runs (sqls : List Text) : Act.Keeps (Duck.RunsBy Attaches) (teardownCatalog sqls) := by
  induction sqls with
  | nil => exact Act.keeps_pure ()
  | cons sql rest ih => exact (execute_runs ⟨sql, rfl⟩).attempt.bind fun _ => ih

theorem attachCatalog_runs (plan : AttachPlan) : Act.Keeps (Duck.RunsBy Attaches) (attachCatalog plan) := by
  have hinner : Act.Keeps (Duck.RunsBy Attaches) (attachCatalogInner plan) :=
    ((execute_runs ⟨_, rfl⟩).mapErr _).bind fun _ => (loadAll_runs plan.load).bind fun _ =>
      (createSecrets_runs plan.secrets).bind fun _ => ((execute_runs ⟨_, rfl⟩).mapErr _).bind fun _ => Act.keeps_pure ()
  refine hinner.attempt.bind fun x => ?_
  cases x with
  | ok _ => exact Act.keeps_pure ()
  | error e => exact (teardownCatalog_runs plan.teardown).bind fun _ => Act.keeps_fail e

theorem execute_noUnwind (st : Stmt) : Act.NoUnwind (execute st) := Act.noUnwind_lift _

theorem executeAll_noUnwind (sts : List Stmt) : Act.NoUnwind (executeAll sts) := by
  induction sts with
  | nil => exact Act.noUnwind_pure ()
  | cons st sts ih => exact (execute_noUnwind st).bind fun _ => ih

theorem executeBatch_noUnwind (g : Grammar) (sql : Text) : Act.NoUnwind (executeBatch g sql) := by
  unfold executeBatch
  split
  · exact Act.noUnwind_fail _
  · exact executeAll_noUnwind _

/-- Tearing down never fails: each of its statements may. -/
theorem teardownCatalog_ok (sqls : List Text) (s : Duck) : ∃ t, teardownCatalog sqls s = (.ok (), t) := by
  induction sqls generalizing s with
  | nil => exact ⟨s, rfl⟩
  | cons sql rest ih =>
    obtain ⟨x, hx⟩ : ∃ x, (Act.attempt (execute (.attach sql)) : Act Duck EngineError _) s =
        (.ok x, (s.exec (.attach sql)).2) := by
      rw [Act.attempt, execute_apply]
      rcases (s.exec (.attach sql)).1 with e | r <;> exact ⟨_, rfl⟩
    rw [teardownCatalog, Act.bind_of_ok hx]
    exact ih _

theorem teardownCatalog_noUnwind (sqls : List Text) : Act.NoUnwind (teardownCatalog sqls) := by
  intro s
  obtain ⟨t, ht⟩ := teardownCatalog_ok sqls s
  simp [ht]

theorem attachCatalog_noUnwind (plan : AttachPlan) : Act.NoUnwind (attachCatalog plan) := by
  have hload (load : List (Text × Text)) : Act.NoUnwind (loadAll load) := by
    induction load with
    | nil => exact Act.noUnwind_pure ()
    | cons p rest ih => exact ((execute_noUnwind _).mapErr _).bind fun _ => ih
  have hsecrets (secrets : List (Text × Text)) : Act.NoUnwind (createSecrets secrets) := by
    induction secrets with
    | nil => exact Act.noUnwind_pure ()
    | cons p rest ih => exact ((execute_noUnwind _).mapErr _).bind fun _ => ih
  have hinner : Act.NoUnwind (attachCatalogInner plan) :=
    ((execute_noUnwind _).mapErr _).bind fun _ => (hload plan.load).bind fun _ => (hsecrets plan.secrets).bind fun _ =>
      ((execute_noUnwind _).mapErr _).bind fun _ => Act.noUnwind_pure ()
  refine hinner.attempt.bind fun x => ?_
  cases x with
  | ok _ => exact Act.noUnwind_pure ()
  | error e => exact (teardownCatalog_noUnwind plan.teardown).bind fun _ => Act.noUnwind_fail e

/-! ### One call -/

/-- A call that takes the pond's writer. -/
inductive WriterCall where
  | write (waits : List Bool) (loc : PondLocation) (owned : Bool) (sql : Text) (identity : Identity)
      (traceId : Option Text) (fetch : Fetch)
  | pull (loc : PondLocation) (plan : Except EngineError AttachPlan) (owned : Bool) (query : Text)
      (identity : Identity) (traceId : Option Text)

/-- A call with the pond it finds and its schedule. -/
structure Serving where
  call : WriterCall
  db : Db
  ticks : List Tick

namespace Serving

variable (g : Grammar)

/-- The caller's text. -/
def text (v : Serving) : Text :=
  match v.call with
  | .write _ _ _ sql _ _ _ => sql
  | .pull _ _ _ query _ _ => query

/-- The connection at the start of the call. -/
def start (v : Serving) (c : Conn) : Duck := ⟨v.db, c, v.ticks, false⟩

/-- The call. -/
def run (v : Serving) (c : Conn) : Ended EngineError Unit × Duck :=
  match v.call with
  | .write waits loc owned sql identity traceId fetch =>
    Act.void (writeQuery g waits loc owned sql identity traceId fetch) (v.start c)
  | .pull loc plan owned query identity traceId =>
    Act.void (pullCatalog g loc plan owned query identity traceId) (v.start c)

/-- What is left behind is what statements of the caller's text left behind. -/
def LeftByText (v : Serving) (c : Conn) : Prop :=
  ∃ b u, b.visible = (v.start c).visible ∧ Duck.RunsBy (g.Has v.text) b u ∧ (v.run g c).2.visible = u.visible

/-- How a call should leave the connection: in autocommit, and after an error with nothing left behind
but what the caller's own text committed. -/
def LeftWell (v : Serving) (c : Conn) : Prop :=
  (v.run g c).2.conn.txn = none ∧ ∀ e, (v.run g c).1 = .err e → v.LeftByText g c

/-- The body of the call, started behind its `BEGIN`, panics while a transaction is open. -/
def PanicsOpen (v : Serving) (c : Conn) : Prop :=
  match v.call with
  | .write waits loc _ sql _ _ fetch =>
    lockWriter waits = .ok () ∧
      ∃ r b u, ((planned loc ((v.start c).arm true)).exec .select).2.exec (.beginTxn false) = (.ok r, b) ∧
        materialize g sql fetch b = (.unwound, u) ∧ u.conn.txn ≠ none
  | .pull .. => False

/-! ### Each call by itself -/

variable {g}

theorem planned_visible (loc : PondLocation) (s : Duck) : (planned loc s).visible = s.visible := by
  unfold planned
  split <;> simp

theorem planned_armed (loc : PondLocation) (s : Duck) : (planned loc s).armed = s.armed := by
  unfold planned
  split
  · exact Duck.exec_armed _ _
  · rfl

theorem planned_txn (loc : PondLocation) (s : Duck) : (planned loc s).conn.txn = none ↔ s.conn.txn = none := by
  unfold planned
  split
  · exact s.exec_select_txn
  · rfl

theorem leftWell_write {v : Serving} {c : Conn} {waits : List Bool} {loc : PondLocation} {owned : Bool} {sql : Text}
    {identity : Identity} {traceId : Option Text} {fetch : Fetch}
    (hv : v.call = .write waits loc owned sql identity traceId fetch) (hc : c.txn = none) :
    v.LeftWell g c ↔ ¬v.PanicsOpen g c := by
  rcases h : writeQuery g waits loc owned sql identity traceId fetch (v.start c) with ⟨o, t⟩
  have hrun : (v.run g c).2 = t ∧ ∀ e, (v.run g c).1 = .err e ↔ o = .err e := by
    simp [run, hv, h]
  have htext : v.text = sql := by simp [text, hv]
  simp only [LeftWell, LeftByText, hrun.1, hrun.2, htext, PanicsOpen, hv]
  rcases writeQuery_spec g _ _ _ _ _ _ _ h with ⟨e, hl, rfl, rfl⟩ | ⟨hl, x, u, hx, hout⟩
  · -- It gave up waiting.
    simp only [hl, reduceCtorEq, false_and, not_false_iff, iff_true]
    exact ⟨hc, fun e' _ => ⟨v.start c, v.start c, rfl, .refl, rfl⟩⟩
  obtain ⟨y, w, hw, hbody⟩ := writeBody_spec g _ _ _ _ _ _ hx
  simp only [hl, true_and, panics_iff hw]
  rcases hbody with ⟨a, res, rfl, rfl, hu⟩ | ⟨e, rfl, rfl, rfl⟩ | ⟨rfl, rfl, rfl⟩
  · -- It committed.
    have hw' : w.conn.txn = none := autocommit_of_ok hw
    have hu' : u.conn.txn = none := by
      rcases hu with rfl | rfl
      · exact hw'
      · exact w.exec_select_txn.2 hw'
    simp only [reduceCtorEq, false_and, not_false_iff, iff_true]
    rcases hout with ⟨r, hr, rfl, rfl⟩ | ⟨e, he, -⟩ | ⟨he, -⟩
    · exact ⟨hu', by simp⟩
    · simp at he
    · simp at he
  · -- It failed, and was rolled back again with the watcher gone.
    simp only [reduceCtorEq, false_and, not_false_iff, iff_true]
    rcases hout with ⟨r, hr, -⟩ | ⟨e', he, rfl, rfl⟩ | ⟨he, -⟩
    · simp at hr
    · refine ⟨by rw [Duck.exec_rollback_unarmed rfl, Duck.setTxn_txn], fun _ _ => ?_⟩
      obtain ⟨b, u', hb, hrun', hu'⟩ := visible_of_error (materializeBody g sql fetch) hw
      refine ⟨b, u', ?_, hrun', ?_⟩
      · rw [hb, planned_visible]
        rfl
      · rw [Duck.visible_exec_rollback, ← hu']
        rfl
    · simp at he
  · -- It panicked: the connection is as the body left it.
    rcases hout with ⟨r, hr, -⟩ | ⟨e, he, -⟩ | ⟨-, rfl, rfl⟩
    · simp at hr
    · simp at he
    · simp [Duck.arm]

/-- **A pull always leaves the writer well**: nothing interrupts its rollback, and nothing in its body
panics. -/
theorem leftWell_pull {v : Serving} {c : Conn} {loc : PondLocation} {plan : Except EngineError AttachPlan}
    {owned : Bool} {query : Text} {identity : Identity} {traceId : Option Text}
    (hv : v.call = .pull loc plan owned query identity traceId) (hc : c.txn = none) : v.LeftWell g c := by
  rcases h : pullCatalog g loc plan owned query identity traceId (v.start c) with ⟨o, t⟩
  have hrun : (v.run g c).2 = t ∧ ∀ e, (v.run g c).1 = .err e ↔ o = .err e := by
    simp [run, hv, h]
  have htext : v.text = query := by simp [text, hv]
  simp only [LeftWell, LeftByText, hrun.1, hrun.2, htext]
  -- `attach`, the bracket, `detach`: `u` and `w` are the states around the bracket.
  have key : t.conn.txn = none ∧ ∀ e, o = .err e →
      ∃ b u, b.visible = (v.start c).visible ∧ Duck.RunsBy (g.Has query) b u ∧ t.visible = u.visible := by
    cases plan with
    | error e =>
      simp only [pullCatalog, Act.fail_apply, Prod.mk.injEq] at h
      exact ⟨h.2 ▸ hc, fun _ _ => ⟨_, _, rfl, .refl, by rw [h.2]⟩⟩
    | ok plan =>
      simp only [pullCatalog] at h
      rcases ha : attachCatalog plan (v.start c) with ⟨⟨⟩ | e | _, s₁⟩
      · obtain ⟨htxn₁, hvis₁, harm₁⟩ := attaches_quiet (ha ▸ attachCatalog_runs plan (v.start c))
        obtain ⟨ds, hds⟩ := planDatasets_apply loc s₁
        rw [Act.bind_of_ok ha, Act.bind_of_ok hds] at h
        have htxn₂ : (planned loc s₁).conn.txn = none := (planned_txn loc s₁).2 (htxn₁ hc)
        have harm₂ : (planned loc s₁).armed = false := by
          rw [planned_armed, harm₁]
          rfl
        rcases hx : inWriteTxn g identity traceId loc.catalogName "pull_catalog".toList
          (Act.mapErr Errclass.classifyMessage (executeBatch g query)) (planned loc s₁) with ⟨⟨⟨⟩, rep⟩ | e | _, u⟩
        · have hw := inWriteTxn_spec g identity traceId _ _ _ _ hx
          obtain ⟨w, htd⟩ := teardownCatalog_ok plan.teardown u
          have hq := attaches_quiet (htd ▸ teardownCatalog_runs plan.teardown u)
          obtain ⟨ds', y, hann, hy⟩ := annotate_apply owned ds w
          rw [Act.bind_of_ok (Act.attempt_of_ok hx), Act.bind_of_ok htd] at h
          simp only at h
          rw [Act.bind_of_ok hann] at h
          cases h
          refine ⟨?_, by simp⟩
          rcases hy with rfl | rfl
          · exact hq.1 (autocommit_of_ok hw)
          · exact w.exec_select_txn.2 (hq.1 (autocommit_of_ok hw))
        · have hw := inWriteTxn_spec g identity traceId _ _ _ _ hx
          obtain ⟨w, htd⟩ := teardownCatalog_ok plan.teardown u
          have hq := attaches_quiet (htd ▸ teardownCatalog_runs plan.teardown u)
          rw [Act.bind_of_ok (Act.attempt_of_err hx), Act.bind_of_ok htd] at h
          cases h
          refine ⟨hq.1 (autocommit_of_error (pullBody g query) hw htxn₂ harm₂), fun _ _ => ?_⟩
          obtain ⟨b, u', hb, hrun', hu'⟩ := visible_of_error (pullBody g query) hw
          exact ⟨b, u', by rw [hb, planned_visible, hvis₁], hrun', by rw [hq.2.1, hu']⟩
        · cases inWriteTxn_spec g identity traceId _ _ _ _ hx with
          | bodyUnwinds hb hu =>
            exact absurd (congrArg Prod.fst hu) ((executeBatch_noUnwind g query).mapErr _ _)
      · rw [Act.bind_of_err ha] at h
        cases h
        have hq := attaches_quiet (ha ▸ attachCatalog_runs plan (v.start c))
        exact ⟨hq.1 hc, fun _ _ => ⟨_, _, rfl, .refl, hq.2.1⟩⟩
      · exact absurd (congrArg Prod.fst ha) (attachCatalog_noUnwind plan _)
  exact key

theorem leftWell_iff (v : Serving) {c : Conn} (hc : c.txn = none) : v.LeftWell g c ↔ ¬v.PanicsOpen g c := by
  cases hv : v.call with
  | write waits loc owned sql identity traceId fetch => exact leftWell_write hv hc
  | pull loc plan owned query identity traceId =>
    have hno : ¬v.PanicsOpen g c := by simp [PanicsOpen, hv]
    exact iff_of_true (leftWell_pull hv hc) hno

end Serving

/-! ### A run of calls -/

/-- `Q` holds of every call of a run, with the connection the call finds. -/
def AllServed (g : Grammar) (Q : Serving → Conn → Prop) : List Serving → Conn → Prop
  | [], _ => True
  | v :: vs, c => Q v c ∧ AllServed g Q vs (v.run g c).2.conn

theorem allServed_leftWell_iff (g : Grammar) (vs : List Serving) {c : Conn} (hc : c.txn = none) :
    AllServed g (Serving.LeftWell g) vs c ↔ AllServed g (fun v c => ¬v.PanicsOpen g c) vs c := by
  induction vs generalizing c with
  | nil => exact Iff.rfl
  | cons v vs ih =>
    simp only [AllServed]
    constructor
    · rintro ⟨hv, hvs⟩
      exact ⟨(v.leftWell_iff hc).1 hv, (ih hv.1).1 hvs⟩
    · rintro ⟨hv, hvs⟩
      have hwell := (v.leftWell_iff hc).2 hv
      exact ⟨hwell, (ih hwell.1).2 hvs⟩

end Latiq.EngineDuckdb
