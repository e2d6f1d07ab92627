import Latiq.EngineDuckdb.ReadSurface
import Latiq.EngineDuckdb.WriterConnection

/-!
# Session isolation

Callers of a pond share its connections. A read connection goes back to the pool
after a read that succeeded, and the writer is kept whatever happened on it. No
session state is reset in between: what a caller's text did to the session meets
the next caller, unless the classifier refused the text, or the brackets undid it.

## The model

* `Mode` — what can still be undone (temporary objects of the open transaction)
  and what cannot (session state). `Mode.after` is a statement in a mode.
* `TidyRead`, `TidyWrite` — texts that leave no session state on a connection that
  is kept.
* `Traffic` — the calls to a pond: reads that overlap, and writes, one after
  another. `Isolated` says that whatever connection a call is given next is as it
  was opened.

## What is proved

* `exec_mode` — **the modes say what statements do**.
* `initial_of_tidy_read`, `initial_of_tidy_write` — a tidy call gives back an
  initial connection, or the pool discards it.
* `session_isolation_iff` — over every run of calls whose texts come from given
  sets, every connection that a call is given is in its initial state, exactly
  when all these texts are tidy.
* `use_meets_the_next_reader` — a `USE` behind a semicolon.
-/

namespace Latiq.EngineDuckdb

open SqlLex (Text)
open Unwind
open Latiq.Engine (classify SqlShape)

/-! ### What statements do to the session -/

/-- The session of a connection: whether a transaction is open and read-only, whether it has temporary
objects, and whether the connection has session state or temporary objects of its own. -/
structure Mode where
  txn : Option Bool
  pending : Bool
  dirty : Bool
  deriving DecidableEq, Repr

/-- What becomes of a statement. -/
inductive Next where
  /-- It attaches something, for every connection of the instance. -/
  | attaches
  /-- It fails. -/
  | stops
  /-- It goes on. -/
  | goes (m : Mode)
  deriving DecidableEq, Repr

/-- What becomes of a statement in a mode. -/
def Mode.after (m : Mode) (st : Stmt) : Next :=
  match st.core with
  | .attach _ => .attaches
  | .session _ => .goes { m with dirty := true }
  | .temp _ => .goes (if m.txn.isSome then { m with pending := true } else { m with dirty := true })
  | .write _ => if m.txn = some true then .stops else .goes m
  | .beginTxn ro => if m.txn.isSome then .stops else .goes ⟨some ro, false, m.dirty⟩
  | .commit => if m.txn.isNone then .stops else .goes ⟨none, false, m.dirty || m.pending⟩
  | .rollback => if m.txn.isNone then .stops else .goes ⟨none, false, m.dirty⟩
  | _ => .goes m

/-- The mode a connection is in. -/
def Duck.mode (s : Duck) : Mode :=
  ⟨s.conn.txn.map (·.readOnly), s.conn.txn.any (!·.temps.isEmpty), !s.conn.session.isEmpty || !s.conn.temps.isEmpty⟩

@[simp] theorem Duck.mode_advance (s : Duck) : s.advance.mode = s.mode := rfl

/-- What a statement that succeeded did. -/
def Next.Holds (s s' : Duck) : Next → Prop
  | .attaches => s'.db.attached ≠ []
  | .stops => False
  | .goes m => s'.mode = m ∧ s'.db.attached = s.db.attached

theorem perform_mode {st : Stmt} {s s' : Duck} {r : Reading} (h : Duck.perform st.core s = (.ok r, s')) :
    (s.mode.after st).Holds s s' := by
  unfold Mode.after
  cases hc : st.core with
  | select =>
    cases ht : s.conn.txn with
    | none =>
      simp only [hc, Duck.perform, Duck.read, ht, Prod.mk.injEq] at h
      obtain ⟨-, rfl⟩ := h
      exact ⟨rfl, rfl⟩
    | some t =>
      simp only [hc, Duck.perform, Duck.read, ht, Prod.mk.injEq] at h
      obtain ⟨-, rfl⟩ := h
      exact ⟨by simp [Duck.mode, ht], rfl⟩
  | write c =>
    cases ht : s.conn.txn with
    | none =>
      simp only [hc, Duck.perform, ht, Prod.mk.injEq] at h
      obtain ⟨-, rfl⟩ := h
      simp [Next.Holds, Duck.mode, ht]
    | some t =>
      cases hro : t.readOnly with
      | true => simp [hc, Duck.perform, ht, hro] at h
      | false =>
        simp only [hc, Duck.perform, ht, hro, Bool.false_eq_true, if_false, Prod.mk.injEq] at h
        obtain ⟨-, rfl⟩ := h
        simp [Next.Holds, Duck.mode, ht, hro]
  | temp o =>
    cases ht : s.conn.txn with
    | none =>
      simp only [hc, Duck.perform, ht, Prod.mk.injEq] at h
      obtain ⟨-, rfl⟩ := h
      simp [Next.Holds, Duck.mode, ht]
    | some t =>
      simp only [hc, Duck.perform, ht, Prod.mk.injEq] at h
      obtain ⟨-, rfl⟩ := h
      simp [Next.Holds, Duck.mode, ht]
  | session x =>
    simp only [hc, Duck.perform, Prod.mk.injEq] at h
    obtain ⟨-, rfl⟩ := h
    simp [Next.Holds, Duck.mode]
  | attach x =>
    simp only [hc, Duck.perform, Prod.mk.injEq] at h
    obtain ⟨-, rfl⟩ := h
    simp [Next.Holds]
  | beginTxn ro =>
    cases ht : s.conn.txn with
    | none =>
      simp only [hc, Duck.perform, ht, Prod.mk.injEq] at h
      obtain ⟨-, rfl⟩ := h
      simp [Next.Holds, Duck.mode, ht]
    | some t => simp [hc, Duck.perform, ht] at h
  | commit =>
    cases ht : s.conn.txn with
    | none => simp [hc, Duck.perform, ht] at h
    | some t =>
      simp only [hc, Duck.perform, ht, Prod.mk.injEq] at h
      obtain ⟨-, rfl⟩ := h
      simp only [Next.Holds, Duck.mode, ht, Option.map_some, Option.isNone_some, Bool.false_eq_true, if_false,
        Option.any_some, Duck.publish_attached, and_true]
      cases s.conn.temps <;> simp
  | rollback =>
    cases ht : s.conn.txn with
    | none => simp [hc, Duck.perform, ht] at h
    | some t =>
      simp only [hc, Duck.perform, ht, Prod.mk.injEq] at h
      obtain ⟨-, rfl⟩ := h
      simp [Next.Holds, Duck.mode, ht]
  | setCommitMessage n =>
    cases ht : s.conn.txn with
    | none =>
      simp only [hc, Duck.perform, ht, Prod.mk.injEq] at h
      obtain ⟨-, rfl⟩ := h
      exact ⟨rfl, rfl⟩
    | some t =>
      simp only [hc, Duck.perform, ht, Prod.mk.injEq] at h
      obtain ⟨-, rfl⟩ := h
      exact ⟨by simp [Duck.mode, ht], rfl⟩
  | explain a b => exact absurd hc (st.core_ne_explain a b)

/-- **The modes say what a statement does** that succeeds. -/
theorem exec_mode {st : Stmt} {s s' : Duck} {r : Reading} (h : s.exec st = (.ok r, s')) :
    (s.mode.after st).Holds s s' := by
  obtain ⟨-, -, hperf⟩ := Duck.exec_ok h
  rw [Duck.perform_core] at hperf
  have hmode := perform_mode hperf
  rw [s.mode_advance] at hmode
  cases hv : s.mode.after st <;> rw [hv] at hmode <;> exact hmode

/-- A query keeps the mode, also one that fails. -/
theorem mode_exec_select (s : Duck) : (s.exec .select).2.mode = s.mode := by
  rcases hx : s.exec .select with ⟨m | r, t⟩
  · rcases s.exec_cases .select with ⟨msg, breaks, -, he⟩ | ⟨-, -, he⟩ | ⟨-, -, he⟩ <;>
      rw [hx] at he
    · rw [(Prod.mk.injEq ..).mp he |>.2, ← s.mode_advance]
      simp only [Duck.broken]
      split
      · rfl
      · rename_i x hx'
        split
        · simp [Duck.mode, show s.conn.txn = some x from hx']
        · rfl
    · rw [(Prod.mk.injEq ..).mp he |>.2, s.mode_advance]
    · rw [Duck.perform_error he.symm, s.mode_advance]
  · exact (exec_mode hx).1

/-- No session state, no temporary objects, and nothing attached. -/
def Duck.Clean (s : Duck) : Prop := s.conn.session = [] ∧ s.conn.temps = [] ∧ s.db.attached = []

theorem Duck.Clean.of_remains {s t : Duck} (hs : s.Clean) (h : t.remains = s.remains) : t.Clean := by
  have hsession : t.conn.session = s.conn.session := congrArg Duck.Remains.session h
  have htemps : t.conn.temps = s.conn.temps := congrArg Duck.Remains.temps h
  have hattached : t.db.attached = s.db.attached := congrArg Duck.Remains.attached h
  exact ⟨hsession.trans hs.1, htemps.trans hs.2.1, hattached.trans hs.2.2⟩

/-- What was clean later was clean before. -/
theorem Duck.Clean.of_piles {s t : Duck} (ht : t.Clean) (h : Duck.Piles s t) : s.Clean :=
  ⟨List.prefix_nil.1 (ht.1 ▸ h.session), List.prefix_nil.1 (ht.2.1 ▸ h.temps), List.prefix_nil.1 (ht.2.2 ▸ h.attached)⟩

theorem Duck.clean_iff {s : Duck} : s.Clean ↔ s.mode.dirty = false ∧ s.db.attached = [] := by
  simp [Duck.Clean, Duck.mode, and_assoc]

/-! ### Tidy texts -/

/-- Whether a text can run from a mode to its end and leave nothing on a connection that is then committed
and kept. Behind the end of the transaction our `COMMIT` fails, and the connection is discarded. -/
def Mode.tidyRead : Mode → List Stmt → Bool
  | m, [] => m.txn.isNone || !(m.dirty || m.pending)
  | m, st :: sts =>
    match m.after st with
    | .attaches => false
    | .stops => true
    | .goes m => m.tidyRead sts

/-- The same for a connection that is kept in any case: nothing may be left on the way. -/
def Mode.tidyWrite : Mode → List Stmt → Bool
  | m, [] => !(m.dirty || m.pending)
  | m, st :: sts =>
    !m.dirty &&
      match m.after st with
      | .attaches => false
      | .stops => true
      | .goes m => m.tidyWrite sts

/-- The read of the text leaves no session state on a connection that is kept. -/
def TidyRead (g : Grammar) (sql : Text) : Prop :=
  classify sql = .write ∨ RustStr.trim sql = [] ∨ ∀ sts, g.parse sql = .ok sts → Mode.tidyRead ⟨some true, false, false⟩ sts

/-- The write of the text leaves no session state. -/
def TidyWrite (g : Grammar) (sql : Text) : Prop :=
  RustStr.trim sql = [] ∨ ∀ sts, g.parse sql = .ok sts → Mode.tidyWrite ⟨some false, false, false⟩ sts

/-- A text of the reading side, statement by statement. -/
theorem runAll_of_tidyRead {sts : List Stmt} {s t : Duck} {o : Ended Text (Option Reading)}
    (htidy : s.mode.tidyRead sts) (hs : s.db.attached = []) (h : runAll sts s = (o, t)) :
    t.db.attached = [] ∧ ∀ a, o = .ok a → t.mode.tidyRead [] := by
  induction sts generalizing s with
  | nil =>
    cases h
    exact ⟨hs, fun _ _ => htidy⟩
  | cons st sts ih =>
    rcases hx : s.exec st with ⟨m | r, s'⟩
    · rw [runAll_cons_of_error hx] at h
      cases h
      exact ⟨(congrArg Duck.Remains.attached (Duck.remains_of_exec_error hx)).trans hs, by simp⟩
    · have hmode := exec_mode hx
      rw [Mode.tidyRead] at htidy
      cases hv : s.mode.after st with
      | attaches => simp [hv] at htidy
      | stops => simp [hv, Next.Holds] at hmode
      | goes m =>
        rw [hv] at htidy hmode
        obtain ⟨rfl, hatt⟩ := hmode
        rcases runAll_cons_cases hx h with ⟨rfl, rfl, rfl⟩ | h
        · exact ⟨hatt.trans hs, fun _ _ => htidy⟩
        · exact ih htidy (hatt.trans hs) h

/-- A text of the writing side. -/
theorem runAll_of_tidyWrite {sts : List Stmt} {s t : Duck} {o : Ended Text (Option Reading)}
    (htidy : s.mode.tidyWrite sts) (hs : s.Clean) (h : runAll sts s = (o, t)) :
    t.Clean ∧ ∀ a, o = .ok a → t.mode.pending = false := by
  induction sts generalizing s with
  | nil =>
    cases h
    refine ⟨hs, fun _ _ => ?_⟩
    simp only [Mode.tidyWrite, Bool.not_eq_true', Bool.or_eq_false_iff] at htidy
    exact htidy.2
  | cons st sts ih =>
    rcases hx : s.exec st with ⟨m | r, s'⟩
    · rw [runAll_cons_of_error hx] at h
      cases h
      exact ⟨hs.of_remains (Duck.remains_of_exec_error hx), by simp⟩
    · have hmode := exec_mode hx
      rw [Mode.tidyWrite, Bool.and_eq_true] at htidy
      cases hv : s.mode.after st with
      | attaches => simp [hv] at htidy
      | stops => simp [hv, Next.Holds] at hmode
      | goes m =>
        rw [hv] at htidy hmode
        obtain ⟨rfl, hatt⟩ := hmode
        have hdirty : s'.mode.dirty = false := by
          have h' := htidy.2
          cases sts <;> simp_all [Mode.tidyWrite]
        have hclean : s'.Clean := Duck.clean_iff.2 ⟨hdirty, hatt.trans hs.2.2⟩
        rcases runAll_cons_cases hx h with ⟨rfl, rfl, rfl⟩ | h
        · refine ⟨hclean, fun _ _ => ?_⟩
          have h' := htidy.2
          simp only [Mode.tidyWrite, Bool.not_eq_true', Bool.or_eq_false_iff] at h'
          exact h'.2
        · exact ih htidy.2 hclean h

/-! ### One call -/

/-- A connection as it is opened, on an instance to which nothing is attached. -/
structure Initial (d : Db) (c : Conn) : Prop where
  txn : c.txn = none
  session : c.session = []
  temps : c.temps = []
  attached : d.attached = []

theorem initial_iff {s : Duck} : Initial s.db s.conn ↔ s.conn.txn = none ∧ s.Clean :=
  ⟨fun h => ⟨h.txn, h.session, h.temps, h.attached⟩, fun h => ⟨h.1, h.2.1, h.2.2.1, h.2.2.2⟩⟩

/-- The mode behind `BEGIN`. -/
theorem mode_of_begin {ro : Bool} {s b : Duck} {r : Reading} (hs : s.Clean) (h : s.exec (.beginTxn ro) = (.ok r, b)) :
    b.mode = ⟨some ro, false, false⟩ ∧ b.Clean := by
  obtain ⟨-, rfl⟩ := Duck.exec_begin_ok h
  refine ⟨?_, hs⟩
  simp [Duck.mode, Duck.begun, hs.1, hs.2.1]

section

variable {g : Grammar}

/-- The text of a read, in its transaction. -/
theorem readText_of_tidy {sql : Text} {s t : Duck} {o : Ended EngineError (Option Reading)}
    (hread : classify sql ≠ .write) (htidy : TidyRead g sql) (hs : s.db.attached = [])
    (hmode : s.mode = ⟨some true, false, false⟩) (h : readText g sql s = (o, t)) :
    t.db.attached = [] ∧ ∀ a, o = .ok a → t.mode.tidyRead [] := by
  have htidy := htidy.resolve_left hread
  unfold readText at h
  split at h
  · cases h
    exact ⟨hs, by simp⟩
  · rename_i hne
    cases hparse : g.parse sql with
    | error e =>
      simp only [hparse, Act.mapErr_apply, Act.fail_apply] at h
      cases h
      exact ⟨hs, by simp [Ended.mapErr]⟩
    | ok sts =>
      simp only [hparse, Act.mapErr_apply] at h
      rcases hx : runAll sts s with ⟨x, u⟩
      rw [hx] at h
      cases h
      obtain ⟨hatt, hok⟩ := runAll_of_tidyRead (hmode ▸ htidy.resolve_left hne sts hparse) hs hx
      exact ⟨hatt, fun a ha => hok a (Ended.mapErr_eq_ok.1 ha)⟩

/-- The body of a read. -/
theorem readBody_of_tidy {loc : PondLocation} {owned : Bool} {sql : Text} {d : Delivery} {s t : Duck}
    {o : Ended EngineError QueryResult} (hread : classify sql ≠ .write) (htidy : TidyRead g sql)
    (hs : s.db.attached = []) (hmode : s.mode = ⟨some true, false, false⟩) (h : readBody g loc owned sql d s = (o, t)) :
    t.db.attached = [] ∧ ∀ res, o = .ok res → t.mode.tidyRead [] := by
  have hselect (u : Duck) : (u.exec .select).2.db.attached = u.db.attached :=
    congrArg Duck.Remains.attached (Duck.remains_exec .select u)
  obtain ⟨ds, hds⟩ := planDatasets_apply loc s
  have hplan : (planned loc s).mode = s.mode ∧ (planned loc s).db.attached = s.db.attached := by
    unfold planned
    split
    · exact ⟨mode_exec_select s, hselect s⟩
    · exact ⟨rfl, rfl⟩
  obtain ⟨ds', u, hann, hu⟩ := annotate_apply owned ds (planned loc s)
  have hu' : u.mode = s.mode ∧ u.db.attached = s.db.attached := by
    rcases hu with rfl | rfl
    · exact hplan
    · exact ⟨(mode_exec_select _).trans hplan.1, (hselect _).trans hplan.2⟩
  rw [readBody, Act.bind_of_ok hds, Act.bind_of_ok hann] at h
  rcases hx : readText g sql u with ⟨a | e | _, w⟩
  · obtain ⟨hatt, hok⟩ := readText_of_tidy hread htidy (hu'.2.trans hs) (hu'.1.trans hmode) hx
    obtain ⟨x, hd⟩ : ∃ x, d.act a w = (x, w) := ⟨_, Prod.ext rfl (d.still a w)⟩
    have hbind := (Act.bind_of_ok hx d.act).trans hd
    rcases x with res | e | _
    · rw [Act.bind_of_ok hbind] at h
      cases h
      exact ⟨hatt, fun _ _ => hok a rfl⟩
    · rw [Act.bind_of_err hbind] at h
      cases h
      exact ⟨hatt, by simp⟩
    · rw [Act.bind_of_unwound hbind] at h
      cases h
      exact ⟨hatt, by simp⟩
  · obtain ⟨hatt, -⟩ := readText_of_tidy hread htidy (hu'.2.trans hs) (hu'.1.trans hmode) hx
    rw [Act.bind_of_err (Act.bind_of_err hx _)] at h
    cases h
    exact ⟨hatt, by simp⟩
  · obtain ⟨hatt, -⟩ := readText_of_tidy hread htidy (hu'.2.trans hs) (hu'.1.trans hmode) hx
    rw [Act.bind_of_unwound (Act.bind_of_unwound hx _)] at h
    cases h
    exact ⟨hatt, by simp⟩

/-- A read of a tidy text, watched and in its bracket. -/
theorem bracket_of_tidy {loc : PondLocation} {owned : Bool} {sql : Text} {d : Delivery} {s t : Duck}
    {o : Ended EngineError QueryResult} (hread : classify sql ≠ .write) (htidy : TidyRead g sql)
    (hs : Initial s.db s.conn) (h : runWithAbort (inReadTxn g (readBody g loc owned sql d)) s = (o, t)) :
    t.db.attached = [] ∧ (o.isOk → Initial t.db t.conn) := by
  rw [runWithAbort_apply] at h
  rcases hx : inReadTxn g (readBody g loc owned sql d) (s.arm true) with ⟨x, u⟩
  rw [hx] at h
  cases h
  have hclean : (s.arm true).Clean := (initial_iff.1 hs).2
  have hdrop (v : Duck) : (v.exec .rollback).2.db.attached = v.db.attached :=
    congrArg Duck.Remains.attached (Duck.remains_exec .rollback v)
  have hfail {v w : Duck} {st : Stmt} {m : Text} (he : v.exec st = (.error m, w)) : w.db.attached = v.db.attached :=
    congrArg Duck.Remains.attached (Duck.remains_of_exec_error he)
  have hout : u.db.attached = [] ∧ ∀ res, x = .ok res → Initial u.db u.conn := by
    cases inReadTxn_spec g _ _ hx with
    | beginFails hb => exact ⟨(hfail hb).trans hclean.2.2, by simp⟩
    | bodyEnds hb hu hok =>
      obtain ⟨hmode, hb'⟩ := mode_of_begin hclean hb
      obtain ⟨hatt, -⟩ := readBody_of_tidy hread htidy hb'.2.2 hmode hu
      refine ⟨(hdrop _).trans hatt, ?_⟩
      rintro res rfl
      simp [Ended.isOk] at hok
    | commitFails hb hu hd =>
      obtain ⟨hmode, hb'⟩ := mode_of_begin hclean hb
      obtain ⟨hatt, -⟩ := readBody_of_tidy hread htidy hb'.2.2 hmode hu
      exact ⟨(hdrop _).trans ((hfail hd).trans hatt), by simp⟩
    | @commits _ _ b w _ res hb hu hd =>
      obtain ⟨hmode, hb'⟩ := mode_of_begin hclean hb
      obtain ⟨hatt, hok⟩ := readBody_of_tidy hread htidy hb'.2.2 hmode hu
      have hend := hok res rfl
      have hcommit := exec_mode hd
      obtain ⟨y, hy, htxn⟩ := Duck.exec_commit_ok hd
      have hopen : w.mode.txn = some y.readOnly := by simp [Duck.mode, hy]
      simp only [Mode.after, Stmt.core, hopen, Option.isNone_some, Bool.false_eq_true, if_false, Next.Holds] at hcommit
      simp only [Mode.tidyRead, hopen, Option.isNone_some, Bool.false_or, Bool.not_eq_true'] at hend
      have hattu : u.db.attached = [] := hcommit.2.trans hatt
      refine ⟨hattu, fun _ _ => initial_iff.2 ⟨by rw [htxn], Duck.clean_iff.2 ⟨?_, hattu⟩⟩⟩
      rw [hcommit.1, hend]
  refine ⟨hout.1, fun hok => ?_⟩
  rcases x with res | e | _
  · exact hout.2 res rfl
  · simp [Ended.isOk, Ended.mapErr] at hok
  · simp [Ended.isOk, Ended.mapErr] at hok

/-- How a write delivers what the last statement of its text read. -/
def writeRows (fetch : Fetch) : Option Reading → Act Duck EngineError (Option Reading × ℕ)
  | none => pure (none, 0)
  | some r => do
    let n ← fetchRows fetch
    pure (some r, n)

theorem materialize_eq (sql : Text) (fetch : Fetch) : materialize g sql fetch = (readText g sql >>= writeRows fetch) := by
  rw [materialize, ← prepare_then_last, Act.bind_assoc]
  congr 1
  funext o
  cases o with
  | none => rfl
  | some st => rw [Act.bind_assoc]; rfl

/-- The rows are fetched without the connection, and panic only where fetching does. -/
theorem writeRows_apply {fetch : Fetch} (hf : fetch ≠ .unwinds) (a : Option Reading) (s : Duck) :
    (∃ n, writeRows fetch a s = (.ok (a, n), s)) ∨ ∃ e, writeRows fetch a s = (.err e, s) := by
  cases a with
  | none => exact .inl ⟨0, rfl⟩
  | some r =>
    cases fetch with
    | done n => exact .inl ⟨n, rfl⟩
    | fails m => exact .inr ⟨_, rfl⟩
    | unwinds => exact absurd rfl hf

/-- The body of a write. -/
theorem materialize_of_tidy {sql : Text} {fetch : Fetch} {s t : Duck} {o : Ended EngineError (Option Reading × ℕ)}
    (htidy : TidyWrite g sql) (hs : s.Clean) (hmode : s.mode = ⟨some false, false, false⟩) (hf : fetch ≠ .unwinds)
    (h : materialize g sql fetch s = (o, t)) : t.Clean ∧ ∀ a, o = .ok a → t.mode.pending = false := by
  rw [materialize_eq] at h
  have htext {x : Ended EngineError (Option Reading)} {u : Duck} (hx : readText g sql s = (x, u)) :
      u.Clean ∧ ∀ a, x = .ok a → u.mode.pending = false := by
    unfold readText at hx
    split at hx
    · cases hx
      exact ⟨hs, by simp⟩
    · rename_i hne
      cases hparse : g.parse sql with
      | error e =>
        simp only [hparse, Act.mapErr_apply, Act.fail_apply] at hx
        cases hx
        exact ⟨hs, by simp [Ended.mapErr]⟩
      | ok sts =>
        simp only [hparse, Act.mapErr_apply] at hx
        rcases hy : runAll sts s with ⟨y, v⟩
        rw [hy] at hx
        cases hx
        obtain ⟨hclean, hok⟩ := runAll_of_tidyWrite (hmode ▸ htidy.resolve_left hne sts hparse) hs hy
        exact ⟨hclean, fun a ha => hok a (Ended.mapErr_eq_ok.1 ha)⟩
  rcases hx : readText g sql s with ⟨a | e | _, u⟩
  · rw [Act.bind_of_ok hx] at h
    obtain ⟨hclean, hok⟩ := htext hx
    rcases writeRows_apply hf a u with ⟨n, hn⟩ | ⟨e, he⟩
    · rw [hn] at h
      cases h
      exact ⟨hclean, fun _ _ => hok a rfl⟩
    · rw [he] at h
      cases h
      exact ⟨hclean, by simp⟩
  · rw [Act.bind_of_err hx] at h
    cases h
    exact ⟨(htext hx).1, by simp⟩
  · rw [Act.bind_of_unwound hx] at h
    cases h
    exact ⟨(htext hx).1, by simp⟩

/-- A text panics only where fetching its rows does. -/
theorem materialize_noUnwind (sql : Text) {fetch : Fetch} (hf : fetch ≠ .unwinds) :
    Act.NoUnwind (materialize g sql fetch) := by
  have hrunAll (sts : List Stmt) : Act.NoUnwind (runAll sts) := by
    induction sts with
    | nil => exact Act.noUnwind_pure none
    | cons st sts ih =>
      cases sts with
      | nil => exact (execute_noUnwind st).bind fun _ => Act.noUnwind_pure _
      | cons st' sts => exact (execute_noUnwind st).bind fun _ => ih
  rw [materialize_eq]
  have hread : Act.NoUnwind (readText g sql) := by
    unfold readText
    split
    · exact Act.noUnwind_fail _
    · refine Act.NoUnwind.mapErr ?_ _
      split
      · exact Act.noUnwind_fail _
      · exact hrunAll _
  refine hread.bind fun a s => ?_
  rcases writeRows_apply hf a s with ⟨n, hn⟩ | ⟨e, he⟩
  · rw [hn]
    simp
  · rw [he]
    simp

/-- The write bracket around a tidy text. -/
theorem clean_of_writeTxn {note : Note} {sql : Text} {fetch : Fetch} {s t : Duck}
    {o : Ended EngineError ((Option Reading × ℕ) × Option ℕ)} (htidy : TidyWrite g sql) (hf : fetch ≠ .unwinds)
    (hs : s.Clean) (h : WriteTxn note (materialize g sql fetch) s o t) : t.Clean := by
  have hselect : (s.exec .select).2.Clean := hs.of_remains (Duck.remains_exec .select s)
  cases h with
  | beginFails hb => exact hselect.of_remains (Duck.remains_of_exec_error hb)
  | bodyFails hb hu =>
    obtain ⟨hmode, hb'⟩ := mode_of_begin hselect hb
    exact (materialize_of_tidy htidy hb' hmode hf hu).1.of_remains (Duck.remains_exec .rollback _)
  | bodyUnwinds hb hu => exact absurd (congrArg Prod.fst hu) (materialize_noUnwind sql hf _)
  | callFails hb hu hc =>
    obtain ⟨hmode, hb'⟩ := mode_of_begin hselect hb
    have hu' := (materialize_of_tidy htidy hb' hmode hf hu).1
    exact (hu'.of_remains (Duck.remains_of_exec_error hc)).of_remains (Duck.remains_exec .rollback _)
  | @commitFails _ _ _ u c _ _ _ hb hu hc hd =>
    obtain ⟨hmode, hb'⟩ := mode_of_begin hselect hb
    have hu' := (materialize_of_tidy htidy hb' hmode hf hu).1
    have hc' : c.remains = u.remains := by
      have := Duck.remains_exec (.setCommitMessage note) u
      rwa [hc] at this
    exact ((hu'.of_remains hc').of_remains (Duck.remains_of_exec_error hd)).of_remains (Duck.remains_exec .rollback _)
  | @commits _ _ _ _ u c d a hb hu hc hd =>
    obtain ⟨hmode, hb'⟩ := mode_of_begin hselect hb
    obtain ⟨hu', hok⟩ := materialize_of_tidy htidy hb' hmode hf hu
    have hpending := hok a rfl
    obtain ⟨hcm, hca⟩ := exec_mode hc
    obtain ⟨y, hy, -⟩ := Duck.exec_commit_ok hd
    have hopen : c.mode.txn = some y.readOnly := by simp [Duck.mode, hy]
    have hcommit := exec_mode hd
    simp only [Mode.after, Stmt.core, hopen, Option.isNone_some, Bool.false_eq_true, if_false, Next.Holds] at hcommit
    have hdirty : u.mode.dirty = false := (Duck.clean_iff.1 hu').1
    have hclean : d.Clean := by
      refine Duck.clean_iff.2 ⟨?_, hcommit.2.trans (hca.trans hu'.2.2)⟩
      rw [hcommit.1, hcm, hdirty, hpending]
      rfl
    exact hclean.of_remains (Duck.remains_exec .select _)

/-- A write of a tidy text leaves the writer in its initial state, whatever became of it. -/
theorem initial_of_tidy_write {waits : List Bool} {loc : PondLocation} {owned : Bool} {sql : Text}
    {identity : Identity} {traceId : Option Text} {fetch : Fetch} {d : Db} {c : Conn} {ticks : List Tick} {t : Duck}
    {o : Ended EngineError QueryResult} (htidy : TidyWrite g sql) (hf : fetch ≠ .unwinds) (hs : Initial d c)
    (h : writeQuery g waits loc owned sql identity traceId fetch ⟨d, c, ticks, false⟩ = (o, t)) :
    Initial t.db t.conn := by
  let s : Duck := ⟨d, c, ticks, false⟩
  have hclean : s.Clean := ⟨hs.session, hs.temps, hs.attached⟩
  have htxn : t.conn.txn = none := by
    let v : Serving := ⟨.write waits loc owned sql identity traceId fetch, d, ticks⟩
    have hpanics : ¬v.PanicsOpen g c := by
      rintro ⟨-, r, b, u, -, hu, -⟩
      exact materialize_noUnwind sql hf b (congrArg Prod.fst hu)
    have hwell := ((v.leftWell_iff hs.txn).2 hpanics).1
    have hrun : (v.run g c).2 = t := by
      show (Act.void (writeQuery g waits loc owned sql identity traceId fetch) s).2 = t
      rw [Act.void_snd, h]
    rwa [hrun] at hwell
  refine initial_iff.2 ⟨htxn, ?_⟩
  rcases writeQuery_spec g _ _ _ _ _ _ _ h with ⟨e, -, -, rfl⟩ | ⟨-, x, u, hx, hout⟩
  · exact hclean
  · have hu : u.Clean := by
      obtain ⟨y, w, hw, hbody⟩ := writeBody_spec g _ _ _ _ _ _ hx
      have hplanned : (planned loc (s.arm true)).Clean := by
        unfold planned
        split
        · exact Duck.Clean.of_remains (s := s.arm true) hclean (Duck.remains_exec .select _)
        · exact hclean
      have hw' := clean_of_writeTxn htidy hf hplanned hw
      rcases hbody with ⟨a, res, -, -, rfl | rfl⟩ | ⟨e, -, -, rfl⟩ | ⟨-, -, rfl⟩
      · exact hw'
      · exact hw'.of_remains (Duck.remains_exec .select _)
      · exact hw'
      · exact hw'
    rcases hout with ⟨r, -, -, rfl⟩ | ⟨e, -, -, rfl⟩ | ⟨-, -, rfl⟩
    · exact hu
    · exact Duck.Clean.of_remains (s := u.arm false) hu (Duck.remains_exec .rollback _)
    · exact hu

/-! ### What an untidy text leaves -/

theorem blocks_of_mode {s : Duck} {st : Stmt} (h : s.mode.after st ≠ .stops) : s.blocks st = false := by
  unfold Mode.after Duck.mode at h
  unfold Duck.blocks
  cases hc : st.core with
  | write c =>
    cases ht : s.conn.txn with
    | none => rfl
    | some t => simpa [hc, ht] using h
  | beginTxn ro => simpa [hc] using h
  | commit | rollback => simpa [hc, Option.isSome_iff_ne_none] using h
  | _ => rfl

/-- Where a text does not stop by itself, its first statement succeeds. -/
theorem exec_of_mode {s : Duck} {st : Stmt} (hs : s.Healthy) (hgo : s.mode.after st ≠ .stops) :
    ∃ r s', s.exec st = (.ok r, s') ∧ s'.Healthy := by
  obtain ⟨r, s', hx⟩ := hs.exec_ok (blocks_of_mode hgo)
  have hs' := hs.exec st
  rw [hx] at hs'
  exact ⟨r, s', hx, hs'⟩

theorem piles_of_runAll {sts : List Stmt} {s t : Duck} {o : Ended Text (Option Reading)} (h : runAll sts s = (o, t)) :
    Duck.Piles s t := by
  have hruns := @runAll_runs (fun _ => True) sts (fun _ _ => trivial) s
  rw [h] at hruns
  exact hruns.piles

theorem attached_of_piles {s t : Duck} (hp : Duck.Piles s t) (hs : s.db.attached ≠ []) : t.db.attached ≠ [] := by
  intro hnil
  exact hs (List.prefix_nil.1 (hnil ▸ hp.attached))

/-- An untidy text of the reading side, where nothing fails by itself: it attaches something, or it comes
to its end in a transaction whose `COMMIT` keeps what it left. -/
theorem runAll_of_untidyRead {sts : List Stmt} {s t : Duck} {o : Ended Text (Option Reading)}
    (hbad : s.mode.tidyRead sts = false) (hs : s.Healthy) (h : runAll sts s = (o, t)) :
    t.db.attached ≠ [] ∨ ∃ a, o = .ok a ∧ t.Healthy ∧ t.mode.tidyRead [] = false := by
  induction sts generalizing s with
  | nil =>
    cases h
    exact .inr ⟨none, rfl, hs, hbad⟩
  | cons st sts ih =>
    rw [Mode.tidyRead] at hbad
    have hgo : s.mode.after st ≠ .stops := by
      intro hv
      simp [hv] at hbad
    obtain ⟨r, s', hx, hs'⟩ := exec_of_mode hs hgo
    have hmode := exec_mode hx
    cases hv : s.mode.after st with
    | stops => exact absurd hv hgo
    | attaches =>
      rw [hv] at hmode
      left
      rcases runAll_cons_cases hx h with ⟨-, -, rfl⟩ | h
      · exact hmode
      · exact attached_of_piles (piles_of_runAll h) hmode
    | goes m =>
      rw [hv] at hmode hbad
      obtain ⟨rfl, -⟩ := hmode
      rcases runAll_cons_cases hx h with ⟨rfl, rfl, rfl⟩ | h
      · exact .inr ⟨some r, rfl, hs', hbad⟩
      · exact ih hbad hs' h

/-- An untidy text of the writing side: it leaves something at once, or its transaction does when it
commits. -/
theorem runAll_of_untidyWrite {sts : List Stmt} {s t : Duck} {o : Ended Text (Option Reading)}
    (hbad : s.mode.tidyWrite sts = false) (hdirty : s.mode.dirty = false) (hs : s.Healthy)
    (h : runAll sts s = (o, t)) : ¬t.Clean ∨ ∃ a, o = .ok a ∧ t.Healthy ∧ t.mode.pending = true := by
  induction sts generalizing s with
  | nil =>
    cases h
    exact .inr ⟨none, rfl, hs, by simpa [Mode.tidyWrite, hdirty] using hbad⟩
  | cons st sts ih =>
    rw [Mode.tidyWrite, hdirty, Bool.not_false, Bool.true_and] at hbad
    have hgo : s.mode.after st ≠ .stops := by
      intro hv
      simp [hv] at hbad
    obtain ⟨r, s', hx, hs'⟩ := exec_of_mode hs hgo
    have hmode := exec_mode hx
    -- what is left behind the first statement stays
    have hleaves : ¬s'.Clean → ¬t.Clean := by
      intro hnot hclean
      rcases runAll_cons_cases hx h with ⟨-, -, rfl⟩ | h
      · exact hnot hclean
      · exact hnot (hclean.of_piles (piles_of_runAll h))
    cases hv : s.mode.after st with
    | stops => exact absurd hv hgo
    | attaches =>
      rw [hv] at hmode
      exact .inl (hleaves fun hclean => hmode hclean.2.2)
    | goes m =>
      rw [hv] at hmode hbad
      obtain ⟨rfl, -⟩ := hmode
      cases hd : s'.mode.dirty with
      | true =>
        refine .inl (hleaves fun hclean => ?_)
        rw [(Duck.clean_iff.1 hclean).1] at hd
        cases hd
      | false =>
        rcases runAll_cons_cases hx h with ⟨rfl, rfl, rfl⟩ | h
        · exact .inr ⟨some r, rfl, hs', by simpa [Mode.tidyWrite, hd] using hbad⟩
        · exact ih hbad hd hs' h

end

/-! ### The traffic of a pond -/

/-- A read that a caller asks for. -/
inductive ReadCall where
  | query (loc : PondLocation) (owned : Bool) (sql : Text) (fetch : Fetch)
  | arrow (loc : PondLocation) (owned : Bool) (sql : Text) (stream : Stream)
  deriving DecidableEq, Repr

def ReadCall.text : ReadCall → Text
  | .query _ _ sql _ => sql
  | .arrow _ _ sql _ => sql

def ReadCall.run (g : Grammar) : ReadCall → Act Duck EngineError QueryResult
  | .query loc owned sql fetch => readQuery g loc owned sql fetch
  | .arrow loc owned sql stream => readArrow g loc owned sql stream

/-- A write that a caller asks for. -/
structure WriteCall where
  waits : List Bool
  loc : PondLocation
  owned : Bool
  sql : Text
  identity : Identity
  traceId : Option Text
  fetch : Fetch

def WriteCall.run (g : Grammar) (w : WriteCall) : Act Duck EngineError QueryResult :=
  writeQuery g w.waits w.loc w.owned w.sql w.identity w.traceId w.fetch

/-- A pond and the reads that are running on it, each on the connection it was given. -/
structure Traffic where
  pond : Pond
  running : List (Conn × ReadCall)
  deriving DecidableEq, Repr

/-- What happens at a pond. Reads overlap; writes take the writer one after another. -/
inductive Event where
  /-- A read passes the guard and is given a connection. -/
  | start (call : ReadCall)
  /-- The read that is so many places down the list runs to its end. -/
  | finish (i : ℕ) (ticks : List Tick)
  /-- A write. -/
  | write (call : WriteCall) (ticks : List Tick)

namespace Traffic

/-- The calls of a pond as `with_read` and `lock_writer` serve them. -/
def step (g : Grammar) (x : Traffic) : Event → Traffic
  | .start call =>
    if classify call.text = .write then x
    else
      match x.pond.checkoutRead with
      | none => x
      | some (c, p) => ⟨p, x.running ++ [(c, call)]⟩
  | .finish i ticks =>
    match x.running[i]? with
    | none => x
    | some (c, call) =>
      let (o, t) := call.run g ⟨x.pond.db, c, ticks, false⟩
      ⟨{ x.pond with db := t.db }.giveBack t.conn o.isOk, x.running.eraseIdx i⟩
  | .write call ticks =>
    let (_, t) := call.run g ⟨x.pond.db, x.pond.writer, ticks, false⟩
    { x with pond := { x.pond with db := t.db, writer := t.conn } }

def run (g : Grammar) (x : Traffic) (es : List Event) : Traffic := es.foldl (step g) x

/-- The connection a call would be given now. -/
def Gives (x : Traffic) (c : Conn) : Prop := (∃ p, x.pond.checkoutRead = some (c, p)) ∨ c = x.pond.writer

/-- Whatever connection a call is given now is as it was opened. -/
def Isolated (x : Traffic) : Prop := ∀ c, x.Gives c → Initial x.pond.db c

/-- No connection of the pond keeps anything of the calls before. -/
structure Untouched (x : Traffic) : Prop where
  writer : Initial x.pond.db x.pond.writer
  idle : ∀ c ∈ x.pond.idle, Initial x.pond.db c
  running : ∀ y ∈ x.running, Initial x.pond.db y.1

end Traffic

/-- The event is one of a read with a text of `R`, or of a write with a text of `W`; fetching the rows of a
write does not panic. -/
def Event.From (R W : Text → Prop) : Event → Prop
  | .start call => R call.text
  | .finish _ _ => True
  | .write call _ => W call.sql ∧ call.fetch ≠ .unwinds

/-! ### Tidy traffic -/

section

variable {g : Grammar}

theorem Initial.of_attached {d d' : Db} {c : Conn} (h : Initial d c) (hd : d'.attached = []) : Initial d' c :=
  ⟨h.txn, h.session, h.temps, hd⟩

/-- A tidy read gives back an initial connection, or one that the pool discards. -/
theorem initial_of_tidy_read {call : ReadCall} {d : Db} {c : Conn} {ticks : List Tick} {t : Duck}
    {o : Ended EngineError QueryResult} (htidy : TidyRead g call.text) (hs : Initial d c)
    (h : call.run g ⟨d, c, ticks, false⟩ = (o, t)) : t.db.attached = [] ∧ (o.isOk → Initial t.db t.conn) := by
  cases call with
  | query loc owned sql fetch =>
    by_cases hread : classify sql = .write
    · rw [ReadCall.run, readQuery, if_pos hread] at h
      cases h
      exact ⟨hs.attached, fun _ => hs⟩
    · rw [ReadCall.run, readQuery_eq g hread] at h
      exact bracket_of_tidy hread htidy (s := ⟨d, c, ticks, false⟩) hs h
  | arrow loc owned sql stream =>
    by_cases hread : classify sql = .write
    · rw [ReadCall.run, readArrow, if_pos hread] at h
      cases h
      exact ⟨hs.attached, fun _ => hs⟩
    · rw [ReadCall.run, readArrow_eq g hread] at h
      exact bracket_of_tidy hread htidy (s := ⟨d, c, ticks, false⟩) hs h

namespace Traffic

/-- **One event**: tidy calls leave every connection untouched. The texts of the reads that are running
are tidy too. -/
theorem step_untouched {R W : Text → Prop} (hR : ∀ sql, R sql → TidyRead g sql) (hW : ∀ sql, W sql → TidyWrite g sql)
    {x : Traffic} {e : Event} (he : e.From R W) (hx : x.Untouched) (hrun : ∀ y ∈ x.running, R y.2.text) :
    (x.step g e).Untouched ∧ ∀ y ∈ (x.step g e).running, R y.2.text := by
  cases e with
  | start call =>
    simp only [step]
    split
    · exact ⟨hx, hrun⟩
    · split
      · exact ⟨hx, hrun⟩
      · rename_i c p hp
        have hgiven : Initial x.pond.db c ∧ p.db = x.pond.db ∧ p.writer = x.pond.writer ∧ ∀ c' ∈ p.idle, c' ∈ x.pond.idle := by
          unfold Pond.checkoutRead at hp
          split at hp
          · rename_i c' idle hidle
            cases hp
            exact ⟨hx.idle c (by simp [hidle]), rfl, rfl, fun c' hc' => by simp [hidle, hc']⟩
          · split at hp
            · cases hp
              exact ⟨⟨rfl, rfl, rfl, hx.writer.attached⟩, rfl, rfl, fun c' hc' => hc'⟩
            · cases hp
        obtain ⟨hc, hdb, hwriter, hidle⟩ := hgiven
        refine ⟨⟨?_, fun c' hc' => ?_, fun y hy => ?_⟩, fun y hy => ?_⟩
        · rw [hdb, hwriter]
          exact hx.writer
        · rw [hdb]
          exact hx.idle c' (hidle c' hc')
        · rw [hdb]
          rcases List.mem_append.1 hy with hy | hy
          · exact hx.running y hy
          · rw [List.mem_singleton.1 hy]
            exact hc
        · rcases List.mem_append.1 hy with hy | hy
          · exact hrun y hy
          · rw [List.mem_singleton.1 hy]
            exact he
  | finish i ticks =>
    simp only [step]
    split
    · exact ⟨hx, hrun⟩
    · rename_i c call hi
      have hmem : (c, call) ∈ x.running := List.mem_of_getElem? hi
      rcases hcall : call.run g ⟨x.pond.db, c, ticks, false⟩ with ⟨o, t⟩
      obtain ⟨hatt, hok⟩ := initial_of_tidy_read (hR _ (hrun _ hmem)) (hx.running _ hmem) hcall
      have hsub : ∀ y ∈ x.running.eraseIdx i, y ∈ x.running := fun y hy => List.mem_of_mem_eraseIdx hy
      refine ⟨⟨?_, fun c' hc' => ?_, fun y hy => ?_⟩, fun y hy => hrun y (hsub y hy)⟩
      · simp only [Pond.giveBack]
        split <;> exact hx.writer.of_attached hatt
      · simp only [Pond.giveBack] at hc' ⊢
        split at hc'
        · rename_i ho
          rw [if_pos ho]
          rcases List.mem_cons.1 hc' with rfl | hc'
          · exact hok ho
          · exact (hx.idle c' hc').of_attached hatt
        · rename_i ho
          rw [if_neg ho]
          exact (hx.idle c' hc').of_attached hatt
      · simp only [Pond.giveBack]
        split <;> exact (hx.running y (hsub y hy)).of_attached hatt
  | write call ticks =>
    simp only [step]
    rcases hcall : call.run g ⟨x.pond.db, x.pond.writer, ticks, false⟩ with ⟨o, t⟩
    have hinit := initial_of_tidy_write (hW _ he.1) he.2 hx.writer hcall
    exact ⟨⟨hinit, fun c' hc' => (hx.idle c' hc').of_attached hinit.attached,
      fun y hy => (hx.running y hy).of_attached hinit.attached⟩, hrun⟩

theorem run_untouched {R W : Text → Prop} (hR : ∀ sql, R sql → TidyRead g sql) (hW : ∀ sql, W sql → TidyWrite g sql)
    {es : List Event} (hes : ∀ e ∈ es, e.From R W) {x : Traffic} (hx : x.Untouched)
    (hrun : ∀ y ∈ x.running, R y.2.text) : (x.run g es).Untouched := by
  induction es generalizing x with
  | nil => exact hx
  | cons e es ih =>
    obtain ⟨hx', hrun'⟩ := step_untouched hR hW (hes e (List.mem_cons_self ..)) hx hrun
    exact ih (fun e' he' => hes e' (List.mem_cons_of_mem _ he')) hx' hrun'

/-- Untouched connections are all that is given. -/
theorem Untouched.isolated {x : Traffic} (hx : x.Untouched) : x.Isolated := by
  rintro c (⟨p, hp⟩ | rfl)
  · unfold Pond.checkoutRead at hp
    split at hp
    · rename_i c' idle hidle
      cases hp
      exact hx.idle c (by simp [hidle])
    · split at hp
      · cases hp
        exact ⟨rfl, rfl, rfl, hx.writer.attached⟩
      · cases hp
  · exact hx.writer

end Traffic

/-! ### Untidy traffic -/

/-- A new connection behind its `BEGIN`. -/
theorem begin_of_fresh (ro armed : Bool) : ∃ r b, ((Duck.fresh []).arm armed).exec (.beginTxn ro) = (.ok r, b) ∧
    b.Healthy ∧ b.mode = ⟨some ro, false, false⟩ :=
  ⟨_, _, rfl, ⟨rfl, by rintro t ⟨⟩; rfl⟩, rfl⟩

/-- A `COMMIT` in a transaction keeps what was set, before it and in it. -/
theorem commit_leaves {s : Duck} (hs : s.Healthy) (hopen : s.mode.txn.isNone = false)
    (hleft : (s.mode.dirty || s.mode.pending) = true) : ∃ r t, s.exec .commit = (.ok r, t) ∧ ¬t.Clean := by
  have hgo : s.mode.after .commit ≠ .stops := by simp [Mode.after, Stmt.core, hopen]
  obtain ⟨r, t, ht⟩ := hs.exec_ok (blocks_of_mode hgo)
  have hcommit := exec_mode ht
  simp only [Mode.after, Stmt.core, hopen, Bool.false_eq_true, if_false, Next.Holds] at hcommit
  refine ⟨r, t, ht, fun hclean => ?_⟩
  have hdirty := (Duck.clean_iff.1 hclean).1
  rw [hcommit.1] at hdirty
  exact absurd (hdirty.symm.trans hleft) Bool.false_ne_true

/-- So it does behind the annotation of the snapshot. -/
theorem annotated_commit_leaves {s : Duck} (hs : s.Healthy) (hpending : s.mode.pending = true) (note : Note) :
    (∃ r t, s.exec (.setCommitMessage note) = (.ok r, t)) ∧
      ∀ r t, s.exec (.setCommitMessage note) = (.ok r, t) → ∃ r' u, t.exec .commit = (.ok r', u) ∧ ¬u.Clean := by
  refine ⟨hs.exec_ok rfl, fun r t ht => ?_⟩
  obtain ⟨hmode, -⟩ := exec_mode ht
  have ht' := hs.exec (.setCommitMessage note)
  rw [ht] at ht'
  have hopen : t.mode.txn.isNone = false := by
    rw [hmode]
    cases htxn : s.conn.txn with
    | none => simp [Duck.mode, htxn] at hpending
    | some x => simp [Duck.mode, htxn]
  exact commit_leaves ht' hopen (by rw [hmode, hpending, Bool.or_true])

/-- The bracket of an untidy read on a new connection: it attaches something, or comes to its end and leaves
something. -/
theorem untidy_readTxn {sql : Text} (hread : ¬classify sql = .write) (hbad : ¬TidyRead g sql)
    {x : Ended EngineError QueryResult} {u : Duck}
    (h : inReadTxn g (readBody g plainPond false sql (.rows (.done 0))) ((Duck.fresh []).arm true) = (x, u)) :
    u.db.attached ≠ [] ∨ (x.isOk ∧ ¬u.Clean) := by
  obtain ⟨hne, hrest⟩ := not_or.1 (not_or.1 hbad).2
  push Not at hrest
  obtain ⟨sts, hparse, hsts⟩ := hrest
  obtain ⟨r, b, hb, hhealthy, hmode⟩ := begin_of_fresh true true
  have hsts' : b.mode.tidyRead sts = false := by simpa [hmode] using hsts
  rcases hr : runAll sts b with ⟨y, w⟩
  have htext := readText_of_parse hne hparse hr
  have hleft := runAll_of_untidyRead hsts' hhealthy hr
  have hcommits (hw : w.Healthy) (hend : w.mode.tidyRead [] = false) : ∃ r d, w.exec .commit = (.ok r, d) ∧ ¬d.Clean := by
    simp only [Mode.tidyRead, Bool.or_eq_false_iff, Bool.not_eq_false'] at hend
    exact commit_leaves hw hend.1 hend.2
  cases inReadTxn_spec g _ _ h with
  | beginFails hb' =>
    rw [hb] at hb'
    cases hb'
  | bodyEnds hb' hu hok =>
    rw [hb] at hb'
    cases hb'
    obtain ⟨rfl, hres⟩ := readBody_plain htext hu
    rcases hleft with hatt | ⟨a, rfl, -⟩
    · exact .inl (attached_of_piles (Duck.exec_piles .rollback _) hatt)
    · obtain ⟨res, rfl, -⟩ := hres a rfl
      simp [Ended.isOk] at hok
  | @commitFails _ _ v d _ _ hb' hu hd =>
    rw [hb] at hb'
    cases hb'
    obtain ⟨rfl, -⟩ := readBody_plain htext hu
    rcases hleft with hatt | ⟨-, -, hw, hend⟩
    · have hp := Duck.exec_piles .commit v
      rw [hd] at hp
      exact .inl (attached_of_piles (Duck.exec_piles .rollback _) (attached_of_piles hp hatt))
    · obtain ⟨r', d', hd', -⟩ := hcommits hw hend
      rw [hd] at hd'
      cases hd'
  | @commits _ _ _ v d res hb' hu hd =>
    rw [hb] at hb'
    cases hb'
    obtain ⟨rfl, -⟩ := readBody_plain htext hu
    rcases hleft with hatt | ⟨-, -, hw, hend⟩
    · have hp := Duck.exec_piles .commit v
      rw [hd] at hp
      exact .inl (attached_of_piles hp hatt)
    · obtain ⟨r', d', hd', hnot⟩ := hcommits hw hend
      rw [hd] at hd'
      cases hd'
      exact .inr ⟨rfl, hnot⟩

/-- An untidy read of a new connection: it attaches something, or gives the connection back as it must not
be. -/
theorem untidy_read {sql : Text} (hbad : ¬TidyRead g sql) {o : Ended EngineError QueryResult} {t : Duck}
    (h : readQuery g plainPond false sql (.done 0) (.fresh []) = (o, t)) :
    t.db.attached ≠ [] ∨ (o.isOk ∧ ¬t.Clean) := by
  have hread := (not_or.1 hbad).1
  rw [readQuery_eq g hread, runWithAbort_apply] at h
  rcases hx : inReadTxn g (readBody g plainPond false sql (.rows (.done 0))) ((Duck.fresh []).arm true) with ⟨x, u⟩
  rw [hx] at h
  cases h
  rcases untidy_readTxn hread hbad hx with hatt | ⟨hok, hnot⟩
  · exact .inl hatt
  · cases x with
    | ok res => exact .inr ⟨rfl, hnot⟩
    | err e => cases hok
    | unwound => cases hok

/-- The body of a write leaves what its text left. -/
theorem materialize_text {sql : Text} {s t u : Duck} {o : Ended EngineError (Option Reading)}
    {x : Ended EngineError (Option Reading × ℕ)} (htext : readText g sql s = (o, t))
    (h : materialize g sql (.done 0) s = (x, u)) : u = t ∧ ∀ a, o = .ok a → ∃ z, x = .ok z := by
  rw [materialize_eq] at h
  cases o with
  | ok a =>
    rw [Act.bind_of_ok htext] at h
    cases a <;> cases h <;> exact ⟨rfl, fun _ _ => ⟨_, rfl⟩⟩
  | err e =>
    rw [Act.bind_of_err htext] at h
    cases h
    exact ⟨rfl, fun a ha => by cases ha⟩
  | unwound =>
    rw [Act.bind_of_unwound htext] at h
    cases h
    exact ⟨rfl, fun a ha => by cases ha⟩

/-- The bracket of an untidy write on a new writer. -/
theorem untidy_writeTxn {sql : Text} (hbad : ¬TidyWrite g sql) (note : Note)
    {x : Ended EngineError ((Option Reading × ℕ) × Option ℕ)} {u : Duck}
    (h : WriteTxn note (materialize g sql (.done 0)) ((Duck.fresh []).arm true) x u) : ¬u.Clean := by
  obtain ⟨hne, hrest⟩ := not_or.1 hbad
  push Not at hrest
  obtain ⟨sts, hparse, hsts⟩ := hrest
  have hkeep {u v : Duck} (hp : Duck.Piles u v) (hu : ¬u.Clean) : ¬v.Clean := fun hv => hu (hv.of_piles hp)
  obtain ⟨r, b, hb, hhealthy, hmode⟩ : ∃ r b, (((Duck.fresh []).arm true).exec .select).2.exec (.beginTxn false) =
      (.ok r, b) ∧ b.Healthy ∧ b.mode = ⟨some false, false, false⟩ :=
    ⟨_, _, rfl, ⟨rfl, by rintro t ⟨⟩; rfl⟩, rfl⟩
  have hsts' : b.mode.tidyWrite sts = false := by simpa [hmode] using hsts
  rcases hr : runAll sts b with ⟨y, w⟩
  have htext := readText_of_parse hne hparse hr
  have hleft := runAll_of_untidyWrite hsts' (by rw [hmode]) hhealthy hr
  cases h with
  | beginFails hb' =>
    rw [hb] at hb'
    cases hb'
  | bodyFails hb' hu =>
    rw [hb] at hb'
    cases hb'
    obtain ⟨rfl, hok⟩ := materialize_text htext hu
    rcases hleft with hleft | ⟨a, rfl, -⟩
    · exact hkeep (Duck.exec_piles .rollback _) hleft
    · obtain ⟨z, hz⟩ := hok a rfl
      cases hz
  | bodyUnwinds hb' hu => exact absurd (congrArg Prod.fst hu) (materialize_noUnwind sql (by simp) _)
  | @callFails _ _ u c _ _ hb' hu hc =>
    rw [hb] at hb'
    cases hb'
    obtain ⟨rfl, -⟩ := materialize_text htext hu
    rcases hleft with hleft | ⟨-, -, hw, hpending⟩
    · have hp := Duck.exec_piles (.setCommitMessage note) u
      rw [hc] at hp
      exact hkeep (Duck.exec_piles .rollback _) (hkeep hp hleft)
    · obtain ⟨r', c', hc'⟩ := (annotated_commit_leaves hw hpending note).1
      rw [hc] at hc'
      cases hc'
  | @commitFails _ _ _ u c d _ _ hb' hu hc hd =>
    rw [hb] at hb'
    cases hb'
    obtain ⟨rfl, -⟩ := materialize_text htext hu
    rcases hleft with hleft | ⟨-, -, hw, hpending⟩
    · have hp := Duck.exec_piles (.setCommitMessage note) u
      have hp' := Duck.exec_piles .commit c
      rw [hc] at hp
      rw [hd] at hp'
      exact hkeep (Duck.exec_piles .rollback _) (hkeep hp' (hkeep hp hleft))
    · obtain ⟨r'', d', hd', -⟩ := (annotated_commit_leaves hw hpending note).2 _ _ hc
      rw [hd] at hd'
      cases hd'
  | @commits _ _ _ _ u c d _ hb' hu hc hd =>
    rw [hb] at hb'
    cases hb'
    obtain ⟨rfl, -⟩ := materialize_text htext hu
    rcases hleft with hleft | ⟨-, -, hw, hpending⟩
    · have hp := Duck.exec_piles (.setCommitMessage note) u
      have hp' := Duck.exec_piles .commit c
      rw [hc] at hp
      rw [hd] at hp'
      exact hkeep (Duck.exec_piles .select _) (hkeep hp' (hkeep hp hleft))
    · obtain ⟨r'', d', hd', hnot⟩ := (annotated_commit_leaves hw hpending note).2 _ _ hc
      rw [hd] at hd'
      cases hd'
      exact hkeep (Duck.exec_piles .select _) hnot

/-- An untidy write on a new writer. -/
theorem untidy_write {sql : Text} (hbad : ¬TidyWrite g sql) {o : Ended EngineError QueryResult} {t : Duck}
    (h : writeQuery g [] plainPond false sql (.claimed none) none (.done 0) (.fresh []) = (o, t)) : ¬t.Clean := by
  rcases writeQuery_spec g _ _ _ _ _ _ _ h with ⟨e, hl, -⟩ | ⟨-, x, u, hx, hout⟩
  · cases hl
  · have hu : ¬u.Clean := by
      obtain ⟨z, v, hv, hend⟩ := writeBody_spec g _ _ _ _ _ _ hx
      have hv' := untidy_writeTxn hbad _ hv
      rcases hend with ⟨a, res, -, -, rfl | rfl⟩ | ⟨e, -, -, rfl⟩ | ⟨-, -, rfl⟩
      · exact hv'
      · exact fun hclean => hv' (hclean.of_piles (Duck.exec_piles .select _))
      · exact hv'
      · exact hv'
    rcases hout with ⟨r, -, -, rfl⟩ | ⟨e, -, -, rfl⟩ | ⟨-, -, rfl⟩
    · exact hu
    · have harm : ¬(u.arm false).Clean := hu
      exact fun hclean => harm (hclean.of_piles (Duck.exec_piles .rollback _))
    · exact hu

end

/-! ### Isolation -/

/-- **Session isolation.** Take any texts `R` that callers send as reads, and any `W` that they send as
writes. Over every run of such calls on a pond, overlapping as the pool lets them, under every schedule, and
however each of them ends (short of a panic in a write), whatever connection is given next is in its initial
state, exactly when every one of these texts is tidy. -/
theorem session_isolation_iff (g : Grammar) (cores : ℕ) (R W : Text → Prop) :
    (∀ es : List Event, (∀ e ∈ es, e.From R W) → (Traffic.run g ⟨.opened cores, []⟩ es).Isolated) ↔
      (∀ sql, R sql → TidyRead g sql) ∧ ∀ sql, W sql → TidyWrite g sql := by
  constructor
  · intro h
    constructor
    · intro sql hsql
      by_contra hbad
      have hiso := h [.start (.query plainPond false sql (.done 0)), .finish 0 []] (by
        intro e he
        simp only [List.mem_cons, List.not_mem_nil, or_false] at he
        rcases he with rfl | rfl
        · exact hsql
        · trivial)
      have hread : classify sql ≠ .write := fun hw => hbad (.inl hw)
      have hmax : 0 < (Pond.opened cores).max :=
        Nat.lt_min.2 ⟨Nat.lt_of_lt_of_le (by decide) (Nat.le_max_right (cores * 2) 4), by decide⟩
      rcases hcall : readQuery g plainPond false sql (.done 0) (.fresh []) with ⟨o, t⟩
      have hrun : Traffic.run g ⟨.opened cores, []⟩ [.start (.query plainPond false sql (.done 0)), .finish 0 []] =
          ⟨Pond.giveBack ⟨t.db, .fresh, [], 1, (Pond.opened cores).max⟩ t.conn o.isOk, []⟩ := by
        have hstart : Traffic.step g ⟨.opened cores, []⟩ (.start (.query plainPond false sql (.done 0))) =
            ⟨⟨.created, .fresh, [], 1, (Pond.opened cores).max⟩, [(.fresh, .query plainPond false sql (.done 0))]⟩ := by
          simp only [Traffic.step, ReadCall.text, if_neg hread, Pond.checkoutRead]
          rw [show (Pond.opened cores).idle = [] from rfl]
          simp only [show (Pond.opened cores).created = 0 from rfl, if_pos hmax]
          rfl
        rw [Traffic.run, List.foldl_cons, hstart, List.foldl_cons, List.foldl_nil]
        simp only [Traffic.step, List.getElem?_cons_zero, ReadCall.run]
        rw [show (⟨Db.created, Conn.fresh, [], false⟩ : Duck) = .fresh [] from rfl, hcall]
        rfl
      rw [hrun] at hiso
      have hwriter := (hiso .fresh (.inr (by simp only [Pond.giveBack]; split <;> rfl))).attached
      rcases untidy_read hbad hcall with hatt | ⟨hok, hclean⟩
      · refine hatt ?_
        simpa only [Pond.giveBack, apply_ite Pond.db, ite_self] using hwriter
      · have hinit := hiso t.conn (.inl ⟨_, by simp only [Pond.giveBack, hok, if_true, Pond.checkoutRead]; rfl⟩)
        simp only [Pond.giveBack, hok, if_true] at hinit
        exact hclean (initial_iff.1 hinit).2
    · intro sql hsql
      by_contra hbad
      rcases hcall : writeQuery g [] plainPond false sql (.claimed none) none (.done 0) (.fresh []) with ⟨o, t⟩
      have hiso := h [.write ⟨[], plainPond, false, sql, .claimed none, none, .done 0⟩ []] (by
        intro e he
        rw [List.mem_singleton.1 he]
        exact ⟨hsql, by simp⟩)
      have hrun : Traffic.run g ⟨.opened cores, []⟩ [.write ⟨[], plainPond, false, sql, .claimed none, none, .done 0⟩ []] =
          ⟨{ Pond.opened cores with db := t.db, writer := t.conn }, []⟩ := by
        simp only [Traffic.run, List.foldl_cons, List.foldl_nil, Traffic.step, WriteCall.run]
        rw [show (⟨(Pond.opened cores).db, (Pond.opened cores).writer, [], false⟩ : Duck) = .fresh [] from rfl, hcall]
      rw [hrun] at hiso
      exact untidy_write hbad hcall (initial_iff.1 (hiso t.conn (.inr rfl))).2
  · rintro ⟨hR, hW⟩ es hes
    refine (Traffic.run_untouched hR hW hes ⟨⟨rfl, rfl, rfl, rfl⟩, ?_, ?_⟩ ?_).isolated
    · simp [Pond.opened]
    · simp
    · simp

/-- A `USE` behind a semicolon passes the classifier; the connection goes back to the pool, and the next
reader is given it. -/
theorem use_meets_the_next_reader :
    let sql := "SELECT 1; USE memory".toList
    let x := Traffic.run keywordGrammar ⟨.opened 4, []⟩ [.start (.query plainPond false sql (.done 1)), .finish 0 []]
    classify sql = .read ∧ x.pond.checkoutRead.map (fun given => given.1.session) = some ["USEmemory".toList] := by
  decide +kernel

end Latiq.EngineDuckdb
