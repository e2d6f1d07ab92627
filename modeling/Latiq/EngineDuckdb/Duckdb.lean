import Latiq.Library.SqlLex
import Mathlib.Logic.Relation

/-!
# What is assumed of DuckDB and DuckLake

The engine adapter drives a DuckDB connection to one pond. DuckDB is not part
of the repository, so this module states what the adapter relies on: a
connection with its open transaction and its session state, the pond behind it
with the snapshots DuckLake published, and the effect of one statement on both.

## The model

* A statement (`Stmt`) is what it does, not how it is spelled. `Grammar` says
  how texts become statements.
* DuckLake numbers its snapshots in order, so the id of a snapshot is its place
  in the list; `Db.snapshots` has the newest first.
* A transaction sees the newest snapshot there is when its first statement
  touches the catalog. What it wrote becomes one snapshot when it commits,
  with the last commit message set in it; a transaction that wrote nothing
  publishes nothing. A statement outside a transaction commits by itself.
* Attached databases and secrets (`attach`) belong to the instance, settings and
  the search path (`session`) to the connection, and neither is transactional.
* Everything the code does not decide is in the schedule, one `Tick` for each
  statement: what other connections published before it, and whether the
  statement runs, fails by itself or is stopped by an interrupt. An interrupt
  stops the statement that is running when it arrives and nothing else, and
  there is one only while a watcher is armed. A `ROLLBACK` fails only by an
  interrupt.

## What is proved

* `exec_grows`, `exec_piles` — a statement only adds snapshots, in front of the
  others, and only adds to what no rollback takes back.
* `remains_of_exec_error` — a statement that fails leaves nothing behind outside
  the transaction.
* `Healthy.exec_ok` — where nothing is scheduled to fail, a statement succeeds
  unless it fails by itself.
* `RunsBy` — what any sequence of statements can do, with its induction;
  `RunsBy.grows` and `RunsBy.armed` hold of all of them.
-/

namespace Latiq.EngineDuckdb

open SqlLex (Text)

/-- Where a snapshot was published from, as one connection sees it. -/
inductive Origin where
  /-- By this connection. -/
  | here
  /-- By another connection. -/
  | elsewhere
  deriving DecidableEq, Repr

/-- The arguments of DuckLake's `set_commit_message`. -/
structure Note where
  author : Text
  message : Text
  extraInfo : Text
  deriving DecidableEq, Repr

/-- One published snapshot of a pond. -/
structure Snapshot where
  origin : Origin
  note : Option Note
  changes : List Text
  deriving DecidableEq, Repr

/-- What the connections to a pond share: its snapshots, newest first, and the databases and
secrets attached to the instance. -/
structure Db where
  snapshots : List Snapshot
  attached : List Text
  deriving DecidableEq, Repr

/-- The id of the newest snapshot. -/
def Db.latest (d : Db) : Option ℕ :=
  match d.snapshots with
  | [] => none
  | _ :: older => some older.length

/-- An open transaction. `pin` is the newest snapshot it sees, once it has looked. -/
structure Txn where
  id : ℕ
  readOnly : Bool
  pin : Option (Option ℕ)
  changes : List Text
  temps : List Text
  note : Option Note
  aborted : Bool
  deriving DecidableEq, Repr

/-- What belongs to one connection. `opened` counts its transactions and names the next one. -/
structure Conn where
  opened : ℕ
  txn : Option Txn
  session : List Text
  temps : List Text
  deriving DecidableEq, Repr

/-- How a statement goes, as far as it is not decided by the statement. `breaks` says whether the
failure aborts the transaction. -/
inductive Fate where
  /-- The statement runs. -/
  | runs
  /-- The statement fails with this message. -/
  | fails (msg : Text) (breaks : Bool)
  /-- An interrupt arrives while the statement is running. -/
  | interrupted (breaks : Bool)
  deriving DecidableEq, Repr

/-- The schedule of one statement. -/
structure Tick where
  others : List Snapshot
  fate : Fate
  deriving DecidableEq, Repr

/-- The statement runs and nobody else publishes. -/
def Tick.plain : Tick := ⟨[], .runs⟩

/-- A connection at work: the pond, the connection, the schedule of the statements to come (they
run when it is used up), and whether an abort watcher is armed. -/
structure Duck where
  db : Db
  conn : Conn
  ticks : List Tick
  armed : Bool
  deriving DecidableEq, Repr

/-- A connection as it is opened: outside a transaction, with no session state of its own. -/
def Conn.fresh : Conn := ⟨0, none, [], []⟩

/-- A pond as it is created: DuckLake publishes a first snapshot for it. -/
def Db.created : Db := ⟨[⟨.elsewhere, none, []⟩], []⟩

/-- A new connection to a new pond, under a schedule. -/
def Duck.fresh (ticks : List Tick) : Duck := ⟨.created, .fresh, ticks, false⟩

/-- What a statement is, by what it does. -/
inductive Stmt where
  /-- A query. -/
  | select
  /-- A statement that changes the pond's catalog. -/
  | write (change : Text)
  /-- A statement that creates a temporary object. -/
  | temp (object : Text)
  /-- `SET`, `RESET` or `USE`. -/
  | session (setting : Text)
  /-- `ATTACH`, `DETACH`, or a statement on a secret. -/
  | attach (object : Text)
  /-- `BEGIN`. -/
  | beginTxn (readOnly : Bool)
  /-- `COMMIT`. -/
  | commit
  /-- `ROLLBACK`. -/
  | rollback
  /-- `CALL ….set_commit_message(…)`. -/
  | setCommitMessage (note : Note)
  /-- `EXPLAIN`, which runs the statement under it if it is `EXPLAIN ANALYZE`. -/
  | explain (analyze : Bool) (body : Stmt)
  deriving DecidableEq, Repr

/-- A statement without its `EXPLAIN`: a plain one only reads, `EXPLAIN ANALYZE` runs what is
under it. -/
def Stmt.core : Stmt → Stmt
  | .explain false _ => .select
  | .explain true st => st.core
  | st => st

/-- A statement that ends a transaction. -/
def Stmt.ends (st : Stmt) : Bool := st.core = .commit || st.core = .rollback

theorem Stmt.core_ne_explain (st : Stmt) (a : Bool) (b : Stmt) : st.core ≠ .explain a b := by
  induction st with
  | explain a' st ih =>
    cases a'
    · simp [core]
    · exact ih
  | _ => simp [core]

/-- What the rows of a statement were read from: the transaction, if there is one, and the newest
snapshot the statement sees. -/
structure Reading where
  txn : Option ℕ
  latest : Option ℕ
  deriving DecidableEq, Repr

/-! ### Messages -/

def interruptMessage : Text := "INTERRUPT Error: Interrupted!".toList

def readOnlyMessage : Text :=
  "Invalid Input Error: Cannot write to database - transaction is launched in read-only mode".toList

def nestedMessage : Text :=
  "TransactionContext Error: cannot start a transaction within a transaction".toList

def noTransactionMessage : Text :=
  "TransactionContext Error: cannot commit or rollback - no transaction is active".toList

def abortedMessage : Text :=
  "TransactionContext Error: Current transaction is aborted (please ROLLBACK)".toList

/-! ### One statement -/

namespace Duck

/-- Replace the open transaction. -/
def setTxn (s : Duck) (t : Option Txn) : Duck := { s with conn := { s.conn with txn := t } }

/-- Publish a snapshot with what was changed, if anything was. -/
def publish (s : Duck) (note : Option Note) (changes : List Text) : Duck :=
  if changes = [] then s
  else { s with db := { s.db with snapshots := ⟨.here, note, changes⟩ :: s.db.snapshots } }

/-- The snapshots that other connections publish before the next statement. -/
def foreign (s : Duck) : List Snapshot :=
  match s.ticks with
  | [] => []
  | t :: _ => t.others.map fun n => { n with origin := .elsewhere }

/-- Others publish, and the next statement starts. -/
def advance (s : Duck) : Duck :=
  { s with
    db := { s.db with snapshots := s.foreign ++ s.db.snapshots }
    ticks := s.ticks.tail }

/-- The failure the schedule has for the next statement, with whether it aborts the transaction. -/
def stop? (s : Duck) (st : Stmt) : Option (Text × Bool) :=
  match s.ticks with
  | [] => none
  | t :: _ =>
    match t.fate with
    | .runs => none
    | .fails msg breaks => if st = .rollback then none else some (msg, breaks)
    | .interrupted breaks => if s.armed then some (interruptMessage, breaks) else none

/-- What a failing statement does to the open transaction. A `COMMIT` that fails for good has ended
it. -/
def broken (s : Duck) (st : Stmt) (breaks : Bool) : Duck :=
  match s.conn.txn with
  | none => s
  | some t =>
    if breaks then
      if st = .commit then s.setTxn none else s.setTxn (some { t with aborted := true })
    else s

/-- Look at the catalog. -/
def read (s : Duck) : Except Text Reading × Duck :=
  match s.conn.txn with
  | none => (.ok ⟨none, s.db.latest⟩, s)
  | some t =>
    let pin := t.pin.getD s.db.latest
    (.ok ⟨some t.id, pin⟩, s.setTxn (some { t with pin := some pin }))

/-- The effect of a statement that the schedule lets run. -/
def perform : Stmt → Duck → Except Text Reading × Duck
  | .select, s => s.read
  | .explain false _, s => s.read
  | .explain true st, s => perform st s
  | .write c, s =>
    match s.conn.txn with
    | none => (.ok ⟨none, s.db.latest⟩, s.publish none [c])
    | some t =>
      if t.readOnly then (.error readOnlyMessage, s)
      else
        let pin := t.pin.getD s.db.latest
        (.ok ⟨some t.id, pin⟩, s.setTxn (some { t with pin := some pin, changes := t.changes ++ [c] }))
  | .temp o, s =>
    match s.conn.txn with
    | none => (.ok ⟨none, none⟩, { s with conn := { s.conn with temps := s.conn.temps ++ [o] } })
    | some t => (.ok ⟨some t.id, none⟩, s.setTxn (some { t with temps := t.temps ++ [o] }))
  | .session x, s =>
    (.ok ⟨s.conn.txn.map (·.id), none⟩, { s with conn := { s.conn with session := s.conn.session ++ [x] } })
  | .attach x, s =>
    (.ok ⟨s.conn.txn.map (·.id), none⟩, { s with db := { s.db with attached := s.db.attached ++ [x] } })
  | .beginTxn ro, s =>
    match s.conn.txn with
    | none =>
      (.ok ⟨some s.conn.opened, none⟩,
        { s with conn := { s.conn with
            opened := s.conn.opened + 1
            txn := some ⟨s.conn.opened, ro, none, [], [], none, false⟩ } })
    | some _ => (.error nestedMessage, s)
  | .commit, s =>
    match s.conn.txn with
    | none => (.error noTransactionMessage, s)
    | some t =>
      (.ok ⟨some t.id, none⟩,
        { s.publish t.note t.changes with
          conn := { s.conn with txn := none, temps := s.conn.temps ++ t.temps } })
  | .rollback, s =>
    match s.conn.txn with
    | none => (.error noTransactionMessage, s)
    | some t => (.ok ⟨some t.id, none⟩, s.setTxn none)
  | .setCommitMessage n, s =>
    match s.conn.txn with
    | none => (.ok ⟨none, none⟩, s)
    | some t => (.ok ⟨some t.id, none⟩, s.setTxn (some { t with note := some n }))

attribute [local simp] perform

/-- Whether the open transaction refuses everything but `ROLLBACK`. -/
def refuses (s : Duck) (st : Stmt) : Bool :=
  match s.conn.txn with
  | none => false
  | some t => t.aborted && decide (st ≠ .rollback)

/-- Run one statement: others publish, then it is stopped, refused or has its effect. -/
def exec (st : Stmt) (s : Duck) : Except Text Reading × Duck :=
  match s.stop? st with
  | some (msg, breaks) => (.error msg, s.advance.broken st breaks)
  | none => if s.advance.refuses st then (.error abortedMessage, s.advance) else perform st s.advance

/-! ### What the parts of a statement leave alone -/

@[simp] theorem setTxn_db (s : Duck) (t : Option Txn) : (s.setTxn t).db = s.db := rfl

@[simp] theorem setTxn_txn (s : Duck) (t : Option Txn) : (s.setTxn t).conn.txn = t := rfl

@[simp] theorem setTxn_session (s : Duck) (t : Option Txn) : (s.setTxn t).conn.session = s.conn.session := rfl

@[simp] theorem setTxn_temps (s : Duck) (t : Option Txn) : (s.setTxn t).conn.temps = s.conn.temps := rfl

@[simp] theorem setTxn_opened (s : Duck) (t : Option Txn) : (s.setTxn t).conn.opened = s.conn.opened := rfl

@[simp] theorem setTxn_armed (s : Duck) (t : Option Txn) : (s.setTxn t).armed = s.armed := rfl

@[simp] theorem setTxn_ticks (s : Duck) (t : Option Txn) : (s.setTxn t).ticks = s.ticks := rfl

@[simp] theorem publish_conn (s : Duck) (n : Option Note) (cs : List Text) : (s.publish n cs).conn = s.conn := by
  unfold publish
  split <;> rfl

@[simp] theorem publish_armed (s : Duck) (n : Option Note) (cs : List Text) :
    (s.publish n cs).armed = s.armed := by
  unfold publish
  split <;> rfl

@[simp] theorem publish_ticks (s : Duck) (n : Option Note) (cs : List Text) :
    (s.publish n cs).ticks = s.ticks := by
  unfold publish
  split <;> rfl

@[simp] theorem publish_attached (s : Duck) (n : Option Note) (cs : List Text) :
    (s.publish n cs).db.attached = s.db.attached := by
  unfold publish
  split <;> rfl

@[simp] theorem publish_nil (s : Duck) (n : Option Note) : s.publish n [] = s := rfl

@[simp] theorem advance_conn (s : Duck) : s.advance.conn = s.conn := rfl

@[simp] theorem advance_armed (s : Duck) : s.advance.armed = s.armed := rfl

@[simp] theorem advance_attached (s : Duck) : s.advance.db.attached = s.db.attached := rfl

@[simp] theorem advance_ticks (s : Duck) : s.advance.ticks = s.ticks.tail := rfl

theorem broken_eq (s : Duck) (st : Stmt) (b : Bool) : ∃ t, s.broken st b = s.setTxn t := by
  unfold broken
  split
  · exact ⟨s.conn.txn, rfl⟩
  · split
    · split
      · exact ⟨none, rfl⟩
      · exact ⟨some _, rfl⟩
    · exact ⟨s.conn.txn, rfl⟩

@[simp] theorem broken_db (s : Duck) (st : Stmt) (b : Bool) : (s.broken st b).db = s.db := by
  obtain ⟨t, h⟩ := s.broken_eq st b
  rw [h, setTxn_db]

@[simp] theorem broken_armed (s : Duck) (st : Stmt) (b : Bool) : (s.broken st b).armed = s.armed := by
  obtain ⟨t, h⟩ := s.broken_eq st b
  rw [h, setTxn_armed]

@[simp] theorem broken_ticks (s : Duck) (st : Stmt) (b : Bool) : (s.broken st b).ticks = s.ticks := by
  obtain ⟨t, h⟩ := s.broken_eq st b
  rw [h, setTxn_ticks]

theorem broken_of_autocommit {s : Duck} (h : s.conn.txn = none) (st : Stmt) (b : Bool) : s.broken st b = s := by
  simp [broken, h]

theorem read_eq (s : Duck) : ∃ r t, s.read = (.ok r, s.setTxn t) := by
  unfold read
  split
  · exact ⟨_, s.conn.txn, rfl⟩
  · exact ⟨_, some _, rfl⟩

theorem perform_core (st : Stmt) (s : Duck) : perform st s = perform st.core s := by
  induction st with
  | explain a st ih =>
    cases a
    · rfl
    · exact ih
  | _ => rfl

/-- **How a statement goes**: the schedule stops it, the aborted transaction refuses it, or it has
its effect; and others publish first in each case. -/
theorem exec_cases (st : Stmt) (s : Duck) :
    (∃ msg breaks, s.stop? st = some (msg, breaks) ∧ s.exec st = (.error msg, s.advance.broken st breaks)) ∨
    (s.stop? st = none ∧ s.advance.refuses st ∧ s.exec st = (.error abortedMessage, s.advance)) ∨
    (s.stop? st = none ∧ s.advance.refuses st = false ∧ s.exec st = perform st s.advance) := by
  unfold exec
  split
  · rename_i msg breaks h
    exact .inl ⟨msg, breaks, h, rfl⟩
  · rename_i h
    split
    · rename_i hr
      exact .inr (.inl ⟨h, hr, rfl⟩)
    · rename_i hr
      exact .inr (.inr ⟨h, by simpa using hr, rfl⟩)

/-- A statement succeeds only by having its effect. -/
theorem exec_ok {st : Stmt} {s s' : Duck} {r : Reading} (h : s.exec st = (.ok r, s')) :
    s.stop? st = none ∧ s.advance.refuses st = false ∧ perform st s.advance = (.ok r, s') := by
  rcases exec_cases st s with ⟨msg, breaks, -, he⟩ | ⟨-, -, he⟩ | ⟨h₁, h₂, he⟩
  · rw [he] at h; simp at h
  · rw [he] at h; simp at h
  · exact ⟨h₁, h₂, he ▸ h⟩

/-- A statement keeps what others' publications, a failure and its effect keep. -/
theorem exec_keeps {R : Duck → Duck → Prop} [IsTrans Duck R] (hadv : ∀ s : Duck, R s s.advance)
    (hbroken : ∀ s st b, R s (broken s st b)) (st : Stmt) (hperf : ∀ s, R s (perform st.core s).2) (s : Duck) :
    R s (s.exec st).2 := by
  rcases exec_cases st s with ⟨msg, breaks, -, he⟩ | ⟨-, -, he⟩ | ⟨-, -, he⟩ <;> rw [he]
  · exact IsTrans.trans _ _ _ (hadv s) (hbroken _ _ _)
  · exact hadv s
  · rw [perform_core]
    exact IsTrans.trans _ _ _ (hadv s) (hperf _)

/-- A statement that fails by itself has no effect. -/
theorem perform_error {st : Stmt} {s t : Duck} {m : Text} (h : perform st s = (.error m, t)) : t = s := by
  rw [perform_core] at h
  cases hc : st.core with
  | select =>
    obtain ⟨r, x, hr⟩ := s.read_eq
    simp [hc, hr] at h
  | write c =>
    simp only [hc, perform] at h
    split at h
    · simp at h
    · split at h
      · exact (Prod.ext_iff.1 h).2.symm
      · simp at h
  | session | attach => simp [hc] at h
  | explain a b => exact absurd hc (st.core_ne_explain a b)
  | _ =>
    simp only [hc, perform] at h
    split at h <;> simp at h
    all_goals exact h.2.symm

/-- A statement that fails by itself: a write in a read-only transaction, a `BEGIN` in a transaction, or an
end of one outside. -/
def blocks (s : Duck) (st : Stmt) : Bool :=
  match st.core with
  | .write _ => s.conn.txn.any (·.readOnly)
  | .beginTxn _ => s.conn.txn.isSome
  | .commit | .rollback => s.conn.txn.isNone
  | _ => false

/-- There is no other. -/
theorem perform_ok_of_blocks {st : Stmt} {s : Duck} (h : s.blocks st = false) :
    ∃ r t, perform st.core s = (.ok r, t) := by
  unfold blocks at h
  cases hc : st.core with
  | select =>
    obtain ⟨r, t, hr⟩ := s.read_eq
    exact ⟨r, _, hr⟩
  | write c =>
    simp only [hc, perform] at h ⊢
    cases ht : s.conn.txn with
    | none => exact ⟨_, _, rfl⟩
    | some t =>
      have hro : t.readOnly = false := by simpa [ht] using h
      simp only [hro, Bool.false_eq_true, if_false]
      exact ⟨_, _, rfl⟩
  | beginTxn ro =>
    simp only [hc, Option.isSome_eq_false_iff, Option.isNone_iff_eq_none] at h
    simp only [perform, h]
    exact ⟨_, _, rfl⟩
  | commit | rollback =>
    simp only [hc, Option.isNone_eq_false_iff] at h
    obtain ⟨t, ht⟩ := Option.isSome_iff_exists.1 h
    simp only [perform, ht]
    exact ⟨_, _, rfl⟩
  | session x | attach x => exact ⟨_, _, rfl⟩
  | temp o | setCommitMessage n =>
    simp only [perform]
    split <;> exact ⟨_, _, rfl⟩
  | explain a b => exact absurd hc (st.core_ne_explain a b)

/-! ### Transaction control -/

/-- The transaction that `BEGIN` opens. -/
def begun (s : Duck) (ro : Bool) : Txn := ⟨s.conn.opened, ro, none, [], [], none, false⟩

/-- A `BEGIN` succeeds outside a transaction only, and opens one. -/
theorem exec_begin_ok {ro : Bool} {s t : Duck} {r : Reading} (h : s.exec (.beginTxn ro) = (.ok r, t)) :
    s.conn.txn = none ∧
      t = { s.advance with conn := { s.conn with opened := s.conn.opened + 1, txn := some (s.begun ro) } } := by
  obtain ⟨-, -, hp⟩ := exec_ok h
  simp only [perform, advance_conn] at hp
  split at hp
  · rename_i hn
    simp only [Prod.mk.injEq] at hp
    exact ⟨hn, hp.2.symm⟩
  · simp at hp

/-- A failing `BEGIN` leaves a connection outside a transaction there. -/
theorem exec_begin_error {ro : Bool} {s t : Duck} {m : Text} (hs : s.conn.txn = none)
    (h : s.exec (.beginTxn ro) = (.error m, t)) : t = s.advance := by
  rcases exec_cases (.beginTxn ro) s with ⟨msg, breaks, -, he⟩ | ⟨-, -, he⟩ | ⟨-, -, he⟩ <;> rw [he] at h
  · cases h
    exact broken_of_autocommit (s := s.advance) hs _ _
  · cases h
    rfl
  · simp [hs] at h

/-- A `COMMIT` that succeeds publishes the transaction and ends it. -/
theorem exec_commit_ok {s t : Duck} {r : Reading} (h : s.exec .commit = (.ok r, t)) :
    ∃ x, s.conn.txn = some x ∧
      t = { s.advance.publish x.note x.changes with
        conn := { s.conn with txn := none, temps := s.conn.temps ++ x.temps } } := by
  obtain ⟨-, -, hp⟩ := exec_ok h
  simp only [perform, advance_conn] at hp
  split at hp
  · simp at hp
  · rename_i x hx
    simp only [Prod.mk.injEq] at hp
    exact ⟨x, hx, hp.2.symm⟩

/-- A commit message is set in the open transaction, and lost outside one. -/
theorem exec_setCommitMessage_ok {n : Note} {s t : Duck} {r : Reading}
    (h : s.exec (.setCommitMessage n) = (.ok r, t)) :
    (s.conn.txn = none ∧ t = s.advance) ∨
      ∃ x, s.conn.txn = some x ∧ t = s.advance.setTxn (some { x with note := some n }) := by
  obtain ⟨-, -, hp⟩ := exec_ok h
  simp only [perform, advance_conn] at hp
  split at hp
  · rename_i hn
    exact .inl ⟨hn, (Prod.ext_iff.1 hp).2.symm⟩
  · rename_i x hx
    exact .inr ⟨x, hx, (Prod.ext_iff.1 hp).2.symm⟩

/-- With no watcher armed a `ROLLBACK` leaves no transaction behind, whether there was one or not. -/
theorem exec_rollback_unarmed {s : Duck} (h : s.armed = false) : (s.exec .rollback).2 = s.advance.setTxn none := by
  have hstop : s.stop? .rollback = none := by
    unfold stop?
    split
    · rfl
    · split <;> simp [h]
  have hrefuse : s.advance.refuses .rollback = false := by
    unfold refuses
    split <;> simp
  simp only [exec, hstop, hrefuse, Bool.false_eq_true, if_false, perform]
  split
  · rename_i hn
    simp only [setTxn, ← hn]
  · rfl

/-- Outside a transaction a query leaves everything but the schedule alone. -/
theorem exec_select_autocommit {s : Duck} (h : s.conn.txn = none) : (s.exec .select).2 = s.advance := by
  rcases exec_cases .select s with ⟨msg, breaks, -, he⟩ | ⟨-, -, he⟩ | ⟨-, -, he⟩ <;> rw [he]
  · exact broken_of_autocommit (s := s.advance) h _ _
  · simp [read, h]

/-- A query neither opens nor ends a transaction. -/
theorem exec_select_txn (s : Duck) : (s.exec .select).2.conn.txn = none ↔ s.conn.txn = none := by
  constructor
  · intro h
    by_contra hs
    obtain ⟨x, hx⟩ := Option.ne_none_iff_exists'.1 hs
    rcases exec_cases .select s with ⟨msg, breaks, -, he⟩ | ⟨-, -, he⟩ | ⟨-, -, he⟩ <;> rw [he] at h
    · simp only [broken, advance_conn, hx] at h
      split at h <;> simp [hx] at h
    · simp [hx] at h
    · simp [read, hx] at h
  · intro h
    rw [exec_select_autocommit h, advance_conn, h]

/-! ### Where nothing goes wrong by itself -/

/-- Nothing is scheduled to fail, and the open transaction is not aborted. -/
def Healthy (s : Duck) : Prop := s.ticks = [] ∧ ∀ t, s.conn.txn = some t → t.aborted = false

theorem Healthy.perform (st : Stmt) {s : Duck} (hs : s.Healthy) : (Duck.perform st.core s).2.Healthy := by
  obtain ⟨hticks, hab⟩ := hs
  have hopen {t : Txn} (ht : s.conn.txn = some t) {x : Txn} (hx : x.aborted = t.aborted) :
      (s.setTxn (some x)).Healthy := by
    refine ⟨hticks, ?_⟩
    rintro y ⟨⟩
    rw [hx]
    exact hab t ht
  cases hc : st.core with
  | select =>
    simp only [Duck.perform, read]
    split
    · exact ⟨hticks, hab⟩
    · rename_i t ht
      exact hopen ht rfl
  | write c =>
    simp only [Duck.perform]
    split
    · exact ⟨by simpa using hticks, by simpa using hab⟩
    · rename_i t ht
      split
      · exact ⟨hticks, hab⟩
      · exact hopen ht rfl
  | beginTxn ro =>
    simp only [Duck.perform]
    split
    · refine ⟨hticks, ?_⟩
      rintro y ⟨⟩
      rfl
    · exact ⟨hticks, hab⟩
  | commit =>
    simp only [Duck.perform]
    split
    · exact ⟨hticks, hab⟩
    · exact ⟨by simpa using hticks, by simp⟩
  | rollback =>
    simp only [Duck.perform]
    split
    · exact ⟨hticks, hab⟩
    · exact ⟨hticks, by simp⟩
  | session | attach => exact ⟨hticks, hab⟩
  | explain a b => exact absurd hc (st.core_ne_explain a b)
  | temp o =>
    simp only [Duck.perform]
    split
    · exact ⟨hticks, hab⟩
    · rename_i t ht
      exact hopen ht rfl
  | setCommitMessage n =>
    simp only [Duck.perform]
    split
    · exact ⟨hticks, hab⟩
    · rename_i t ht
      exact hopen ht rfl

theorem refuses_of_txn {s : Duck} {t : Txn} (ht : s.conn.txn = some t) (st : Stmt) :
    s.refuses st = (t.aborted && decide (st ≠ .rollback)) := by
  rw [refuses, ht]

/-- On a healthy connection a statement has its effect. -/
theorem Healthy.exec_eq {s : Duck} (hs : s.Healthy) (st : Stmt) : s.exec st = Duck.perform st s.advance := by
  have hstop : s.stop? st = none := by rw [stop?, hs.1]
  have hrefuse : s.advance.refuses st = false := by
    unfold refuses
    split
    · rfl
    · rename_i t ht
      simp [hs.2 t ht]
  rw [Duck.exec, hstop]
  simp [hrefuse]

/-- It succeeds unless it fails by itself. -/
theorem Healthy.exec_ok {s : Duck} (hs : s.Healthy) {st : Stmt} (h : s.blocks st = false) :
    ∃ r t, s.exec st = (.ok r, t) := by
  rw [hs.exec_eq, perform_core]
  exact perform_ok_of_blocks (s := s.advance) h

/-- It stays healthy. -/
theorem Healthy.exec {s : Duck} (hs : s.Healthy) (st : Stmt) : (s.exec st).2.Healthy := by
  have hadv : s.advance.Healthy := ⟨by simp [hs.1], hs.2⟩
  rw [hs.exec_eq, perform_core]
  exact hadv.perform st

/-! ### Sequences of statements -/

/-- `s'` can be reached from `s` by running statements of the class `P`. -/
def RunsBy (P : Stmt → Prop) : Duck → Duck → Prop :=
  Relation.ReflTransGen fun s s' => ∃ st, P st ∧ s' = (s.exec st).2

instance {P : Stmt → Prop} : Std.Refl (RunsBy P) := ⟨fun _ => .refl⟩

instance {P : Stmt → Prop} : IsTrans Duck (RunsBy P) := ⟨fun _ _ _ => .trans⟩

theorem RunsBy.exec {P : Stmt → Prop} {st : Stmt} (h : P st) (s : Duck) : RunsBy P s (s.exec st).2 :=
  .single ⟨st, h, rfl⟩

theorem RunsBy.mono {P Q : Stmt → Prop} (hpq : ∀ st, P st → Q st) {s s' : Duck} (h : RunsBy P s s') :
    RunsBy Q s s' := by
  induction h with
  | refl => exact .refl
  | tail _ hstep ih =>
    obtain ⟨st, hst, rfl⟩ := hstep
    exact ih.tail ⟨st, hpq st hst, rfl⟩

/-- What every statement of the class keeps, every sequence of them keeps. -/
theorem RunsBy.keeps {P : Stmt → Prop} {R : Duck → Duck → Prop} [Std.Refl R] [IsTrans Duck R]
    (hR : ∀ st s, P st → R s (s.exec st).2) {s s' : Duck} (h : RunsBy P s s') : R s s' := by
  induction h with
  | refl => exact Std.Refl.refl s
  | tail _ hstep ih =>
    obtain ⟨st, hst, rfl⟩ := hstep
    exact IsTrans.trans _ _ _ ih (hR st _ hst)

/-- An invariant of every statement of the class is one of every sequence of them. -/
theorem RunsBy.invariant {P : Stmt → Prop} {I : Duck → Prop} (hI : ∀ st s, P st → I s → I (s.exec st).2)
    {s s' : Duck} (h : RunsBy P s s') (hs : I s) : I s' := by
  induction h with
  | refl => exact hs
  | tail _ hstep ih =>
    obtain ⟨st, hst, rfl⟩ := hstep
    exact hI st _ hst ih

/-! ### Snapshots are only added -/

/-- Snapshots are added in front of the others. -/
def Grows (s s' : Duck) : Prop := s.db.snapshots <:+ s'.db.snapshots

instance : Std.Refl Grows := ⟨fun _ => List.suffix_rfl⟩

instance : IsTrans Duck Grows := ⟨fun _ _ _ => List.IsSuffix.trans⟩

theorem publish_grows (s : Duck) (n : Option Note) (cs : List Text) : Grows s (s.publish n cs) := by
  unfold Grows publish
  split
  · exact List.suffix_rfl
  · exact List.suffix_cons _ _

theorem perform_grows (st : Stmt) (s : Duck) : Grows s (perform st.core s).2 := by
  unfold Grows
  cases hst : st.core with
  | select =>
    obtain ⟨r, t, h⟩ := s.read_eq
    simp [h]
  | write c =>
    simp only [perform]
    split
    · exact publish_grows _ _ _
    · split <;> simp
  | commit =>
    simp only [perform]
    split
    · simp
    · exact publish_grows _ _ _
  | session | attach => exact List.suffix_rfl
  | explain a st' => exact absurd hst (st.core_ne_explain a st')
  | _ => simp only [perform]; split <;> simp

/-- A statement only adds snapshots, in front of the others. -/
theorem exec_grows (st : Stmt) (s : Duck) : Grows s (s.exec st).2 :=
  exec_keeps (fun s => List.suffix_append _ _) (fun s st b => by simp [Grows]) st (perform_grows st) s

theorem Grows.of_exec {st : Stmt} {s t : Duck} {x : Except Text Reading} (h : s.exec st = (x, t)) : Grows s t := by
  have := exec_grows st s
  rwa [h] at this

theorem RunsBy.grows {P : Stmt → Prop} {s s' : Duck} (h : RunsBy P s s') : Grows s s' :=
  h.keeps fun st s _ => exec_grows st s

/-! ### What no rollback takes back only piles up -/

/-- What is attached, the session state, the temporary objects and the number of transactions. -/
structure Piles (s s' : Duck) : Prop where
  attached : s.db.attached <+: s'.db.attached
  session : s.conn.session <+: s'.conn.session
  temps : s.conn.temps <+: s'.conn.temps
  opened : s.conn.opened ≤ s'.conn.opened

instance : Std.Refl Piles := ⟨fun _ => ⟨List.prefix_rfl, List.prefix_rfl, List.prefix_rfl, le_rfl⟩⟩

instance : IsTrans Duck Piles where
  trans _ _ _ h h' :=
    ⟨h.attached.trans h'.attached, h.session.trans h'.session, h.temps.trans h'.temps, h.opened.trans h'.opened⟩

theorem piles_perform (st : Stmt) (s : Duck) : Piles s (perform st.core s).2 := by
  have hrefl (t : Option Txn) : Piles s (s.setTxn t) := ⟨List.prefix_rfl, List.prefix_rfl, List.prefix_rfl, le_rfl⟩
  cases hst : st.core with
  | select =>
    obtain ⟨r, t, h⟩ := s.read_eq
    simp only [perform, h]
    exact hrefl t
  | write c =>
    simp only [perform]
    split
    · exact ⟨by simp, by simp, by simp, by simp⟩
    · split
      · exact Std.Refl.refl s
      · exact hrefl _
  | temp o =>
    simp only [perform]
    split
    · exact ⟨List.prefix_rfl, List.prefix_rfl, List.prefix_append _ _, le_rfl⟩
    · exact hrefl _
  | session x => exact ⟨List.prefix_rfl, List.prefix_append _ _, List.prefix_rfl, le_rfl⟩
  | attach x => exact ⟨List.prefix_append _ _, List.prefix_rfl, List.prefix_rfl, le_rfl⟩
  | beginTxn ro =>
    simp only [perform]
    split
    · exact ⟨List.prefix_rfl, List.prefix_rfl, List.prefix_rfl, Nat.le_succ _⟩
    · exact Std.Refl.refl s
  | commit =>
    simp only [perform]
    split
    · exact Std.Refl.refl s
    · exact ⟨by simp, List.prefix_rfl, List.prefix_append _ _, le_rfl⟩
  | rollback | setCommitMessage =>
    simp only [perform]
    split
    · exact Std.Refl.refl s
    · exact hrefl _
  | explain a b => exact absurd hst (st.core_ne_explain a b)

/-- A statement only adds to it. -/
theorem exec_piles (st : Stmt) (s : Duck) : Piles s (s.exec st).2 := by
  refine exec_keeps (fun s => ⟨List.prefix_rfl, List.prefix_rfl, List.prefix_rfl, le_rfl⟩) (fun s st b => ?_) st
    (piles_perform st) s
  obtain ⟨t, h⟩ := s.broken_eq st b
  rw [h]
  exact ⟨List.prefix_rfl, List.prefix_rfl, List.prefix_rfl, le_rfl⟩

theorem RunsBy.piles {P : Stmt → Prop} {s s' : Duck} (h : RunsBy P s s') : Piles s s' :=
  h.keeps fun st s _ => exec_piles st s

/-! ### The snapshots of this connection -/

/-- The snapshots that this connection published, newest first. -/
def own (s : Duck) : List Snapshot := s.db.snapshots.filter fun n => n.origin = .here

@[simp] theorem own_setTxn (s : Duck) (t : Option Txn) : (s.setTxn t).own = s.own := rfl

@[simp] theorem own_broken (s : Duck) (st : Stmt) (b : Bool) : (s.broken st b).own = s.own := by
  rw [own, broken_db, own]

@[simp] theorem own_advance (s : Duck) : s.advance.own = s.own := by
  have hf : s.foreign.filter (fun n => n.origin = .here) = [] := by
    unfold foreign
    split
    · rfl
    · rename_i t _ _
      simp [List.filter_eq_nil_iff]
  rw [own, advance, own, List.filter_append, hf, List.nil_append]

theorem own_publish (s : Duck) (n : Option Note) (cs : List Text) :
    (s.publish n cs).own = if cs = [] then s.own else ⟨.here, n, cs⟩ :: s.own := by
  unfold publish own
  split <;> simp [*]

/-- The snapshots of a connection grow with those of the pond. -/
theorem Grows.own {s t : Duck} (h : Grows s t) : s.own <:+ t.own := h.filter _

/-- **What a statement publishes**: nothing; or its own change, outside a transaction and without a
commit message; or, as a `COMMIT`, the changes of the transaction with its last message. -/
theorem perform_own (st : Stmt) (s : Duck) :
    (perform st.core s).2.own = s.own ∨
    (∃ c, st.core = .write c ∧ s.conn.txn = none ∧ (perform st.core s).2.own = ⟨.here, none, [c]⟩ :: s.own) ∨
    (∃ t, st.core = .commit ∧ s.conn.txn = some t ∧ t.changes ≠ [] ∧
      (perform st.core s).2.own = ⟨.here, t.note, t.changes⟩ :: s.own) := by
  cases hst : st.core with
  | select =>
    obtain ⟨r, t, h⟩ := s.read_eq
    simp [h]
  | write c =>
    simp only [perform]
    split
    · rename_i h
      exact .inr (.inl ⟨c, rfl, h, by simp [own_publish]⟩)
    · split <;> exact .inl (by simp)
  | commit =>
    simp only [perform]
    split
    · exact .inl rfl
    · rename_i t h
      by_cases hc : t.changes = []
      · exact .inl (by simp [hc, own])
      · have hp := own_publish s t.note t.changes
        rw [if_neg hc] at hp
        exact .inr (.inr ⟨t, trivial, h, hc, hp⟩)
  | session | attach => exact .inl rfl
  | explain a st' => exact absurd hst (st.core_ne_explain a st')
  | _ => simp only [perform]; split <;> exact .inl rfl

theorem exec_own (st : Stmt) (s : Duck) :
    (s.exec st).2.own = s.own ∨
    (∃ c, st.core = .write c ∧ s.conn.txn = none ∧ (s.exec st).2.own = ⟨.here, none, [c]⟩ :: s.own) ∨
    (∃ t, st.core = .commit ∧ s.conn.txn = some t ∧ t.changes ≠ [] ∧
      (s.exec st).2.own = ⟨.here, t.note, t.changes⟩ :: s.own) := by
  rcases exec_cases st s with ⟨msg, breaks, -, he⟩ | ⟨-, -, he⟩ | ⟨-, -, he⟩ <;> rw [he]
  · exact .inl (by simp)
  · exact .inl (by simp)
  · rw [perform_core]
    simpa using perform_own st s.advance

/-! ### What is left outside the transaction -/

/-- What a connection leaves behind when its transaction is gone: the snapshots it published, what is
attached, and its session state and temporary objects. -/
structure Remains where
  own : List Snapshot
  attached : List Text
  session : List Text
  temps : List Text
  deriving DecidableEq, Repr

def remains (s : Duck) : Remains := ⟨s.own, s.db.attached, s.conn.session, s.conn.temps⟩

@[simp] theorem remains_setTxn (s : Duck) (t : Option Txn) : (s.setTxn t).remains = s.remains := rfl

@[simp] theorem remains_advance (s : Duck) : s.advance.remains = s.remains := by
  rw [remains, own_advance, advance_conn, advance_attached, remains]

@[simp] theorem remains_broken (s : Duck) (st : Stmt) (b : Bool) : (s.broken st b).remains = s.remains := by
  obtain ⟨t, h⟩ := s.broken_eq st b
  rw [h, remains_setTxn]

/-- A statement that fails leaves nothing behind. -/
theorem remains_of_exec_error {st : Stmt} {s t : Duck} {m : Text} (h : s.exec st = (.error m, t)) :
    t.remains = s.remains := by
  rcases exec_cases st s with ⟨msg, breaks, -, he⟩ | ⟨-, -, he⟩ | ⟨-, -, he⟩ <;> rw [he] at h
  · cases h
    simp
  · cases h
    simp
  · rw [perform_error h, remains_advance]

/-- A query, and the statements that open or drop a transaction or set its message. -/
inductive Quiet : Stmt → Prop where
  | select : Quiet .select
  | beginTxn (ro : Bool) : Quiet (.beginTxn ro)
  | rollback : Quiet .rollback
  | setCommitMessage (n : Note) : Quiet (.setCommitMessage n)

/-- They leave nothing behind. -/
theorem remains_exec {st : Stmt} (hst : Quiet st) (s : Duck) : (s.exec st).2.remains = s.remains := by
  rcases exec_cases st s with ⟨msg, breaks, -, he⟩ | ⟨-, -, he⟩ | ⟨-, -, he⟩ <;> rw [he]
  · simp
  · simp
  · rw [← s.remains_advance]
    cases hst <;> simp only [perform, read] <;> split <;> rfl

/-- Of this, what others can see of a call that attached nothing for itself. -/
def visible (s : Duck) : List Snapshot × List Text × List Text := (s.own, s.conn.temps, s.conn.session)

/-- Of this, what is left on the pond. -/
def footprint (s : Duck) : List Snapshot × List Text := (s.own, s.db.attached)

theorem visible_of_remains {s t : Duck} (h : t.remains = s.remains) : t.visible = s.visible :=
  congrArg (fun r : Remains => (r.own, r.temps, r.session)) h

theorem footprint_of_remains {s t : Duck} (h : t.remains = s.remains) : t.footprint = s.footprint :=
  congrArg (fun r : Remains => (r.own, r.attached)) h

@[simp] theorem visible_setTxn (s : Duck) (t : Option Txn) : (s.setTxn t).visible = s.visible := rfl

@[simp] theorem visible_advance (s : Duck) : s.advance.visible = s.visible := visible_of_remains s.remains_advance

@[simp] theorem footprint_advance (s : Duck) : s.advance.footprint = s.footprint :=
  footprint_of_remains s.remains_advance

@[simp] theorem visible_broken (s : Duck) (st : Stmt) (b : Bool) : (s.broken st b).visible = s.visible :=
  visible_of_remains (s.remains_broken st b)

theorem visible_of_exec_error {st : Stmt} {s t : Duck} {m : Text} (h : s.exec st = (.error m, t)) :
    t.visible = s.visible := visible_of_remains (remains_of_exec_error h)

theorem footprint_of_exec_error {st : Stmt} {s t : Duck} {m : Text} (h : s.exec st = (.error m, t)) :
    t.footprint = s.footprint := footprint_of_remains (remains_of_exec_error h)

theorem own_of_exec_error {st : Stmt} {s t : Duck} {m : Text} (h : s.exec st = (.error m, t)) : t.own = s.own :=
  congrArg Prod.fst (visible_of_exec_error h)

theorem visible_exec {st : Stmt} (hst : Quiet st) (s : Duck) : (s.exec st).2.visible = s.visible :=
  visible_of_remains (remains_exec hst s)

theorem footprint_exec {st : Stmt} (hst : Quiet st) (s : Duck) : (s.exec st).2.footprint = s.footprint :=
  footprint_of_remains (remains_exec hst s)

@[simp] theorem visible_exec_select (s : Duck) : (s.exec .select).2.visible = s.visible :=
  visible_exec .select s

@[simp] theorem visible_exec_beginTxn (ro : Bool) (s : Duck) : (s.exec (.beginTxn ro)).2.visible = s.visible :=
  visible_exec (.beginTxn ro) s

@[simp] theorem visible_exec_rollback (s : Duck) : (s.exec .rollback).2.visible = s.visible :=
  visible_exec .rollback s

@[simp] theorem visible_exec_setCommitMessage (n : Note) (s : Duck) :
    (s.exec (.setCommitMessage n)).2.visible = s.visible :=
  visible_exec (.setCommitMessage n) s

@[simp] theorem own_exec_select (s : Duck) : (s.exec .select).2.own = s.own :=
  congrArg Prod.fst s.visible_exec_select

@[simp] theorem own_exec_beginTxn (ro : Bool) (s : Duck) : (s.exec (.beginTxn ro)).2.own = s.own :=
  congrArg Prod.fst (s.visible_exec_beginTxn ro)

@[simp] theorem own_exec_rollback (s : Duck) : (s.exec .rollback).2.own = s.own :=
  congrArg Prod.fst s.visible_exec_rollback

@[simp] theorem own_exec_setCommitMessage (n : Note) (s : Duck) : (s.exec (.setCommitMessage n)).2.own = s.own :=
  congrArg Prod.fst (s.visible_exec_setCommitMessage n)

/-- **Inside a transaction** every statement but `COMMIT` and `ROLLBACK` leaves it open and publishes
nothing. -/
theorem exec_inside {st : Stmt} {s : Duck} (hst : st.ends = false) (hs : s.conn.txn.isSome) :
    (s.exec st).2.conn.txn.isSome ∧ (s.exec st).2.own = s.own := by
  simp only [Stmt.ends, Bool.or_eq_false_iff, decide_eq_false_iff_not] at hst
  obtain ⟨hcommit, hrollback⟩ := hst
  obtain ⟨x, hx⟩ := Option.isSome_iff_exists.1 hs
  refine ⟨?_, ?_⟩
  · rcases exec_cases st s with ⟨msg, breaks, -, he⟩ | ⟨-, -, he⟩ | ⟨-, -, he⟩ <;> rw [he]
    · have hne : st ≠ .commit := by
        rintro rfl
        exact hcommit rfl
      simp only [broken, advance_conn, hx, if_neg hne]
      split <;> simp [hx]
    · simpa using hs
    · rw [perform_core]
      cases hc : st.core with
      | commit => exact absurd hc hcommit
      | rollback => exact absurd hc hrollback
      | explain a b => exact absurd hc (st.core_ne_explain a b)
      | write c =>
        simp only [perform, advance_conn, hx]
        split <;> simp [hx]
      | _ => simp [read, hx]
  · rcases exec_own st s with h | ⟨c, -, hn, -⟩ | ⟨t, hc, -⟩
    · exact h
    · simp [hx] at hn
    · exact absurd hc hcommit

/-! ### The watcher is not the statement's to disarm -/

theorem exec_armed (st : Stmt) (s : Duck) : (s.exec st).2.armed = s.armed := by
  rcases exec_cases st s with ⟨msg, breaks, -, he⟩ | ⟨-, -, he⟩ | ⟨-, -, he⟩ <;> rw [he]
  · simp
  · simp
  · rw [perform_core]
    cases hst : st.core with
    | select =>
      obtain ⟨r, t, h⟩ := s.advance.read_eq
      simp [h]
    | write c =>
      simp only [perform]
      split
      · simp
      · split <;> simp
    | session | attach => rfl
    | explain a st' => exact absurd hst (st.core_ne_explain a st')
    | _ => simp only [perform]; split <;> simp

theorem RunsBy.armed {P : Stmt → Prop} {s s' : Duck} (h : RunsBy P s s') : s'.armed = s.armed := by
  induction h with
  | refl => rfl
  | tail _ hstep ih =>
    obtain ⟨st, -, rfl⟩ := hstep
    rw [exec_armed, ih]

end Duck

end Latiq.EngineDuckdb
