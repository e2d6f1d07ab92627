import Latiq.EngineDuckdb.Bracket

/-!
# What a write reports

`in_write_txn` reports the snapshot a call published by comparing the newest
snapshot before and after it. The comparison sees everybody's snapshots, and
`max_snapshot` turns a read that failed into `none`, so the report is right only
under a condition on these two reads.

## What is proved

* `inWriteTxn_ok` — a call that returns `Ok` is the two reads around the statements
  in between (`bracketed`).
* `report_exact_iff` — **when the report is exact**: for every body, every schedule
  and every state, the report is the last snapshot this call published, if any,
  exactly when `ReportRight` holds.
* `failed_read_reports_a_write` — the first read of a call that only reads is
  interrupted, and the call reports another connection's snapshot as its own.
-/

namespace Latiq.EngineDuckdb

open SqlLex (Text)
open Unwind

/-! ### The last snapshot of a call -/

/-- The id of the newest snapshot that this connection published. -/
def newestOwn : List Snapshot → Option ℕ
  | [] => none
  | n :: older => if n.origin = .here then some older.length else newestOwn older

/-- The id of the last snapshot this connection published between two states, if there is one. -/
def lastPublished (s t : Duck) : Option ℕ :=
  if t.own.length = s.own.length then none else newestOwn t.db.snapshots

/-- Whether the newest snapshot was published from here. -/
def newestIsOwn (s : Duck) : Prop := ∃ n older, s.db.snapshots = n :: older ∧ n.origin = .here

theorem newestOwn_lt {l : List Snapshot} {k : ℕ} (h : newestOwn l = some k) : k < l.length := by
  induction l with
  | nil => simp [newestOwn] at h
  | cons n older ih =>
    simp only [newestOwn] at h
    split at h
    · simp only [Option.some.injEq] at h
      simp [h]
    · have := ih h
      simp only [List.length_cons]
      omega

theorem newestOwn_eq_none {s : Duck} : newestOwn s.db.snapshots = none ↔ s.own = [] := by
  unfold Duck.own
  induction s.db.snapshots with
  | nil => simp [newestOwn]
  | cons n older ih =>
    by_cases hn : n.origin = .here
    · simp [newestOwn, hn]
    · simp [newestOwn, hn, ih]

theorem newestOwn_eq_latest {s : Duck} (hs : s.own ≠ []) : newestOwn s.db.snapshots = s.db.latest ↔ newestIsOwn s := by
  unfold newestIsOwn Db.latest
  cases h : s.db.snapshots with
  | nil => simp [Duck.own, h] at hs
  | cons n older =>
    by_cases hn : n.origin = .here
    · simp [newestOwn, hn]
    · simp only [newestOwn, if_neg hn, List.cons.injEq]
      constructor
      · intro hk
        have := newestOwn_lt hk
        omega
      · rintro ⟨n', older', ⟨rfl, rfl⟩, hn'⟩
        exact absurd hn' hn

/-! ### The two reads -/

/-- Whether the schedule lets a read of the newest snapshot be answered. -/
def Answers (s : Duck) : Prop := ∃ r, (s.exec .select).1 = .ok r

/-- Outside a transaction a read that is answered gives the newest snapshot there is. -/
theorem readLatest_of_answers {s : Duck} (hs : s.conn.txn = none) (h : Answers s) :
    readLatest (s.exec .select).1 = (s.exec .select).2.db.latest := by
  obtain ⟨r, hr⟩ := h
  obtain ⟨-, -, hp⟩ := Duck.exec_ok (Prod.ext hr rfl)
  simp only [Duck.perform, Duck.read, Duck.advance_conn, hs, Prod.mk.injEq, Except.ok.injEq] at hp
  rw [hr, Duck.exec_select_autocommit hs, ← hp.1]
  rfl

theorem readLatest_of_not_answers {s : Duck} (h : ¬Answers s) : readLatest (s.exec .select).1 = none := by
  unfold Answers at h
  rcases hs : (s.exec .select).1 with e | r
  · rfl
  · exact absurd ⟨r, hs⟩ h

/-! ### Comparing them -/

theorem latest_eq_none {d : Db} : d.latest = none ↔ d.snapshots = [] := by
  unfold Db.latest
  split <;> simp [*]

/-- The comparison of two answers is the comparison of how many snapshots there were. -/
theorem later_latest (d d' : Db) : later d'.latest d.latest ↔ d.snapshots.length < d'.snapshots.length := by
  unfold Db.latest
  cases d.snapshots <;> cases d'.snapshots <;> simp [later]

theorem later_none (a : Option ℕ) : later a none = a.isSome := by
  cases a <;> rfl

/-- A connection that published something sees more snapshots than before. -/
theorem length_lt_of_own {s t : Duck} (h : Duck.Grows s t) (hown : t.own.length ≠ s.own.length) :
    s.db.snapshots.length < t.db.snapshots.length := by
  obtain ⟨new, hnew⟩ := h
  cases new with
  | nil => simp [Duck.own, ← hnew] at hown
  | cons n new =>
    rw [← hnew]
    simp only [List.cons_append, List.length_cons, List.length_append]
    omega

/-! ### The report -/

section

variable (g : Grammar)

/-- The statements of the write bracket between its two reads of the newest snapshot. -/
def bracketed {α : Type} (identity : Identity) (traceId : Option Text) (catalog op : Text)
    (body : Act Duck EngineError α) : Act Duck EngineError α := do
  ours g "BEGIN"
  let out ← orRollback g body
  orRollback g (Act.mapErr .engine (executeBatch g (callText catalog (author identity) op (extraInfo identity traceId))))
  orRollback g (ours g "COMMIT")
  pure out

/-- The bracket that commits, from its steps. -/
theorem bracketed_of_commits {α : Type} (identity : Identity) (traceId : Option Text) (catalog op : Text)
    {body : Act Duck EngineError α} {s b u c d : Duck} {a : α} {r r' r'' : Reading}
    (hb : s.exec (.beginTxn false) = (.ok r, b)) (hu : body b = (.ok a, u))
    (hc : u.exec (.setCommitMessage (noteOf identity traceId op)) = (.ok r', c)) (hd : c.exec .commit = (.ok r'', d)) :
    bracketed g identity traceId catalog op body s = (.ok a, d) := by
  have hbegin := ours_begin g s
  have hcall := setMessage_apply g catalog (author identity) op (extraInfo identity traceId) u
  have hcommit := ours_commit g c
  rw [hb] at hbegin
  rw [show Note.mk (author identity) op (extraInfo identity traceId) = noteOf identity traceId op from rfl, hc] at hcall
  rw [hd] at hcommit
  rw [bracketed, Act.bind_of_ok hbegin, Act.bind_of_ok (orRollback_of_ok g hu),
    Act.bind_of_ok (orRollback_of_ok g hcall), Act.bind_of_ok (orRollback_of_ok g hcommit)]
  rfl

end

/-- When the report of a call is exact, from the state before its first read and the one before its
second: a call that published needs its second read answered before anybody else publishes; a call
that did not needs the second read to fail, or the first to be answered and nobody to publish in
between (or a pond without snapshots). -/
def ReportRight (s d : Duck) : Prop :=
  if (d.exec .select).2.own.length = s.own.length then
    ¬Answers d ∨ (d.exec .select).2.db.snapshots = [] ∨
      (Answers s ∧ (d.exec .select).2.db.snapshots.length = (s.exec .select).2.db.snapshots.length)
  else Answers d ∧ newestIsOwn (d.exec .select).2

/-- **The write report.** For every body, schedule and state, a call that returns `Ok` reports the last
snapshot it published, if it published one, exactly when `ReportRight` holds. -/
theorem report_exact_iff (g : Grammar) {P : Stmt → Prop} {α : Type} (identity : Identity) (traceId : Option Text)
    (catalog op : Text) (body : Body P α) {s t : Duck} {a : α} {report : Option ℕ}
    (h : inWriteTxn g identity traceId catalog op body.act s = (.ok (a, report), t)) :
    report = lastPublished s t ↔
      ReportRight s (bracketed g identity traceId catalog op body.act (s.exec .select).2).2 := by
  cases inWriteTxn_spec g identity traceId catalog op body.act s h with
  | @commits r r' r'' b u c d _ hb hu hc hd =>
    rw [bracketed_of_commits g identity traceId catalog op hb hu hc hd]
    have hs : s.conn.txn = none := (s.exec_select_txn).1 (Duck.exec_begin_ok hb).1
    have hdt : d.conn.txn = none := by
      obtain ⟨x, -, rfl⟩ := Duck.exec_commit_ok hd
      rfl
    have hgrows : Duck.Grows (s.exec .select).2 (d.exec .select).2 :=
      IsTrans.trans _ _ _ (.of_exec hb) <| IsTrans.trans _ _ _ (Duck.RunsBy.grows (hu ▸ body.runs b)) <|
        IsTrans.trans _ _ _ (.of_exec hc) <| IsTrans.trans _ _ _ (.of_exec hd) (Duck.exec_grows .select d)
    have hlen := hgrows.length_le
    have hsown : (s.exec .select).2.own = s.own := s.own_exec_select
    simp only [ReportRight, lastPublished]
    by_cases hown : (d.exec .select).2.own.length = s.own.length
    · -- Nothing published: the report must be empty.
      rw [if_pos hown, if_pos hown]
      by_cases hd' : Answers d
      · rw [readLatest_of_answers hdt hd']
        by_cases hs' : Answers s
        · rw [readLatest_of_answers hs hs']
          simp only [later_latest, ite_eq_right_iff, latest_eq_none, hd', hs', not_true, false_or, true_and]
          constructor
          · intro himp
            by_cases hlt : (s.exec .select).2.db.snapshots.length < (d.exec .select).2.db.snapshots.length
            · exact .inl (himp hlt)
            · exact .inr (by omega)
          · rintro (hnil | heq) hlt
            · exact hnil
            · omega
        · rw [readLatest_of_not_answers hs']
          simp only [later_none, ite_eq_right_iff, hd', hs', not_true, false_or, false_and, or_false]
          rw [← latest_eq_none]
          cases (d.exec .select).2.db.latest <;> simp
      · simp [readLatest_of_not_answers hd', later, hd']
    · -- Something published: the report must be the newest of it.
      rw [if_neg hown, if_neg hown]
      have hne : (d.exec .select).2.own ≠ [] := by
        intro hnil
        have := hgrows.own.length_le
        rw [hnil, hsown] at this
        rw [hnil] at hown
        simp only [List.length_nil, Nat.le_zero] at this hown
        omega
      have hlt := length_lt_of_own hgrows (hsown ▸ hown)
      by_cases hd' : Answers d
      · rw [readLatest_of_answers hdt hd']
        have hlater : later (d.exec .select).2.db.latest (readLatest (s.exec .select).1) := by
          by_cases hs' : Answers s
          · rw [readLatest_of_answers hs hs', later_latest]
            exact hlt
          · rw [readLatest_of_not_answers hs', later_none, Option.isSome_iff_ne_none, ne_eq, latest_eq_none]
            rintro hnil
            simp [hnil] at hlt
        rw [if_pos hlater, ← newestOwn_eq_latest hne]
        simp [hd', eq_comm]
      · rw [readLatest_of_not_answers hd']
        simp only [later, Bool.false_eq_true, if_false, hd', false_and, iff_false]
        exact fun h => hne (newestOwn_eq_none.1 h.symm)

/-! ### Where it goes wrong -/

/-- A call on a new pond with one text, under a schedule. -/
def tryWrite (sql : String) (s : Duck) : Ended EngineError ((Option Reading × ℕ) × Option ℕ) × Duck :=
  inWriteTxn keywordGrammar (.claimed none) none "pond".toList "write_query".toList
    (materializeBody keywordGrammar sql.toList (.done 1)).act s

/-- An insert that nothing disturbs reports its snapshot, and `report_exact_iff` says why. -/
theorem report_of_an_insert :
    some 1 = lastPublished (.fresh []) (tryWrite "INSERT INTO t VALUES (1)" (.fresh [])).2 ↔
      ReportRight (.fresh [])
        (bracketed keywordGrammar (.claimed none) none "pond".toList "write_query".toList
          (materializeBody keywordGrammar "INSERT INTO t VALUES (1)".toList (.done 1)).act
          ((Duck.fresh []).exec .select).2).2 :=
  report_exact_iff keywordGrammar (.claimed none) none "pond".toList "write_query".toList
    (materializeBody keywordGrammar "INSERT INTO t VALUES (1)".toList (.done 1))
    (show tryWrite "INSERT INTO t VALUES (1)" (.fresh []) =
      (.ok ((some ⟨some 0, some 0⟩, 1), some 1), (tryWrite "INSERT INTO t VALUES (1)" (.fresh [])).2) by
      decide +kernel)

/-- The first read of the newest snapshot is interrupted, and a call that only reads reports the
snapshot the pond was created with as its own. -/
theorem failed_read_reports_a_write :
    let s := (Duck.fresh [⟨[], .interrupted false⟩]).arm true
    (tryWrite "SELECT 1" s).1 = .ok ((some ⟨some 0, some 0⟩, 1), some 0) ∧
      lastPublished s (tryWrite "SELECT 1" s).2 = none := by
  decide +kernel

end Latiq.EngineDuckdb
