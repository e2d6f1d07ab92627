import Latiq.EngineDuckdb.Bracket

/-!
# Explaining runs what follows

`run_explain` puts `EXPLAIN (FORMAT JSON)` in front of the caller's text, and
`EXPLAIN` where DuckDB refuses that. The prefix is part of the first statement of
the text only, and preparing a text runs all its statements but the last; the
guard against `ANALYZE` looks at characters where DuckDB looks at tokens.

## What is proved

* `segments_append` — a prefix goes to the first statement of a text only.
* `deeds_runs` — statements that only read leave no deed behind.
* `runAll_moves` — any other statement does, in some state, whatever follows it.
* `explain_only_reads_iff` — in every state and under every schedule an explain
  leaves no deed behind exactly when its guard refuses the text or all statements
  of both prefixed texts only read.
* `explain_executes` — a second statement is run; and a comment in front of
  `ANALYZE` passes the guard.
-/

namespace Latiq.EngineDuckdb

open SqlLex
open Unwind

/-! ### The prefix -/

/-- The tokens of `EXPLAIN (FORMAT JSON) `. -/
def explainJsonItems : List Item :=
  [kw "EXPLAIN", .space ' ', .punct '(', kw "FORMAT", .space ' ', kw "JSON", .punct ')', .space ' ']

theorem takes_explainJson (sql : Text) : TakesAll (explainJson ++ sql) explainJsonItems sql := by
  have h : explainJson = "EXPLAIN".toList ++ ' ' :: '(' :: ("FORMAT".toList ++ ' ' :: ("JSON".toList ++ [')', ' '])) := by
    decide
  rw [h]
  simp only [List.append_assoc, List.cons_append, List.nil_append]
  refine .cons (takes_word (by decide) (by decide) (by decide) (by decide)) (.cons (.space rfl) ?_)
  refine .cons (lexItem_eq_some.1 rfl) ?_
  refine .cons (takes_word (by decide) (by decide) (by decide) (by decide)) (.cons (.space rfl) ?_)
  refine .cons (takes_word (by decide) (by decide) (by decide) (by decide)) ?_
  exact .cons (lexItem_eq_some.1 rfl) (.cons (.space rfl) .nil)

theorem splitOn_append_of_notMem {sep : Item} {pre : List Item} (h : ∀ i ∈ pre, i ≠ sep) (xs : List Item) :
    (pre ++ xs).splitOn sep = (xs.splitOn sep).modifyHead (pre ++ ·) := by
  induction pre with
  | nil =>
    rw [List.nil_append]
    cases xs.splitOn sep <;> rfl
  | cons i pre ih =>
    have hi : (i == sep) = false := by simpa using h i (List.mem_cons_self ..)
    rw [List.cons_append, List.splitOn_cons_eq_if_modifyHead, ih fun j hj => h j (List.mem_cons_of_mem _ hj)]
    cases xs.splitOn sep <;> simp [hi]

/-- **A prefix goes to the first statement only**: what stands behind the first semicolon of the text is
as it was. -/
theorem segments_append {pre : List Item} (h : ∀ i ∈ pre, i ≠ .punct ';') (hne : pre.filter (fun i => !i.isGap) ≠ [])
    (items : List Item) : ∃ first rest, (items.filter fun i => !i.isGap).splitOn (.punct ';') = first :: rest ∧
      segments (pre ++ items) = (pre.filter (fun i => !i.isGap) ++ first) :: rest.filter (· ≠ []) := by
  obtain ⟨first, rest, hp⟩ := List.exists_cons_of_ne_nil
    (List.splitOn_ne_nil (.punct ';') (items.filter fun i => !i.isGap))
  refine ⟨first, rest, hp, ?_⟩
  have hpre : ∀ i ∈ pre.filter (fun i => !i.isGap), i ≠ .punct ';' := fun i hi => h i (List.mem_filter.1 hi).1
  rw [segments, List.filter_append, splitOn_append_of_notMem hpre]
  have hhead : pre.filter (fun i => !i.isGap) ++ first ≠ [] := fun hnil => hne (List.append_eq_nil_iff.1 hnil).1
  rw [show (items.filter fun i => !i.isGap).splitOn (.punct ';') = first :: rest from hp, List.modifyHead_cons,
    List.filter_cons_of_pos (by simpa only [decide_eq_true_eq] using hhead)]

/-! ### Deeds -/

/-- What statements have done, in the transaction and outside. Looking at the catalog is no deed, nor is a
failure. -/
structure Deeds where
  own : List Snapshot
  attached : List Text
  session : List Text
  temps : List Text
  opened : ℕ
  txn : Option (ℕ × List Text × List Text × Option Note)
  deriving DecidableEq, Repr

def Duck.deeds (s : Duck) : Deeds :=
  ⟨s.own, s.db.attached, s.conn.session, s.conn.temps, s.conn.opened,
    s.conn.txn.map fun t => (t.id, t.changes, t.temps, t.note)⟩

@[simp] theorem Duck.deeds_advance (s : Duck) : s.advance.deeds = s.deeds := by
  simp only [Duck.deeds, Duck.own_advance, Duck.advance_attached, Duck.advance_conn]

/-- A statement that only reads leaves no deed behind, also where it fails. -/
theorem deeds_exec {st : Stmt} (hst : st.core = .select) (s : Duck) : (s.exec st).2.deeds = s.deeds := by
  have hread (u : Duck) : u.read.2.deeds = u.deeds := by
    simp only [Duck.read]
    split
    · rfl
    · rename_i t ht
      simp [Duck.deeds, ht]
  rcases s.exec_cases st with ⟨msg, breaks, -, he⟩ | ⟨-, -, he⟩ | ⟨-, -, he⟩ <;> rw [he]
  · have hne : st ≠ .commit := by
      rintro rfl
      simp [Stmt.core] at hst
    rw [← s.deeds_advance]
    simp only [Duck.broken]
    split
    · rfl
    · rename_i t ht
      split
      · simp [Duck.deeds, show s.conn.txn = some t from ht]
      · rfl
  · exact s.deeds_advance
  · rw [Duck.perform_core, hst, ← s.deeds_advance]
    exact hread s.advance

theorem deeds_runs {s t : Duck} (h : Duck.RunsBy (fun st => st.core = .select) s t) : t.deeds = s.deeds :=
  h.invariant (I := fun u => u.deeds = s.deeds) (fun _ u hst hu => (deeds_exec hst u).trans hu) rfl

/-! ### Other statements leave deeds behind -/

/-- How much was done outside the transaction, and how many were opened. -/
def Duck.toll (s : Duck) : ℕ :=
  s.own.length + s.db.attached.length + s.conn.session.length + s.conn.temps.length + s.conn.opened

/-- Nothing takes any of it back. -/
theorem toll_exec (st : Stmt) (s : Duck) : s.toll ≤ (s.exec st).2.toll := by
  have hown := (Duck.Grows.own (s.exec_grows st)).length_le
  have hpiles := Duck.exec_piles st s
  have hattached := hpiles.attached.length_le
  have hsession := hpiles.session.length_le
  have htemps := hpiles.temps.length_le
  have hopened := hpiles.opened
  unfold Duck.toll
  omega

/-- A statement that takes effect in autocommit. -/
inductive ActsOutside : Stmt → Prop where
  | write (c : Text) : ActsOutside (.write c)
  | temp (o : Text) : ActsOutside (.temp o)
  | session (x : Text) : ActsOutside (.session x)
  | attach (x : Text) : ActsOutside (.attach x)
  | beginTxn (ro : Bool) : ActsOutside (.beginTxn ro)

/-- A statement that takes effect on the open transaction only. -/
inductive ActsInside : Stmt → Prop where
  | commit : ActsInside .commit
  | rollback : ActsInside .rollback
  | setCommitMessage (n : Note) : ActsInside (.setCommitMessage n)

/-- What does not only read acts in autocommit or in a transaction. -/
theorem acts_of_ne_select {st : Stmt} (h : st.core ≠ .select) : ActsOutside st.core ∨ ActsInside st.core := by
  cases hc : st.core with
  | select => exact absurd hc h
  | explain a b => exact absurd hc (st.core_ne_explain a b)
  | write c => exact .inl (.write c)
  | temp o => exact .inl (.temp o)
  | session x => exact .inl (.session x)
  | attach x => exact .inl (.attach x)
  | beginTxn ro => exact .inl (.beginTxn ro)
  | commit => exact .inr .commit
  | rollback => exact .inr .rollback
  | setCommitMessage n => exact .inr (.setCommitMessage n)

/-- In autocommit the toll of such a statement is paid at once. -/
theorem toll_of_outside {st : Stmt} {s : Duck} (hst : ActsOutside st.core) (hs : s.Healthy)
    (htxn : s.conn.txn = none) : s.toll < (s.exec st).2.toll := by
  have hadv : s.advance.conn.txn = none := htxn
  have htoll : s.advance.toll = s.toll := by
    rw [Duck.toll, Duck.own_advance, Duck.advance_attached, Duck.advance_conn, Duck.toll]
  rw [hs.exec_eq, Duck.perform_core, ← htoll]
  generalize s.advance = u at *
  generalize st.core = c at *
  cases hst with
  | write c =>
    simp only [Duck.perform, hadv, Duck.toll, Duck.own_publish, Duck.publish_attached, Duck.publish_conn]
    simp
  | _ =>
    simp only [Duck.perform, hadv, Duck.toll, Duck.own, List.length_append, List.length_singleton]
    omega

/-- The first transaction is over, or has a commit message. -/
def Stirred (s : Duck) : Prop :=
  1 ≤ s.conn.opened ∧ ∀ t, s.conn.txn = some t → s.conn.opened = 1 → t.note ≠ none

theorem Stirred.setTxn {s : Duck} (h : Stirred s) {t : Option Txn}
    (ht : ∀ x, t = some x → ∃ y, s.conn.txn = some y ∧ (y.note ≠ none → x.note ≠ none)) : Stirred (s.setTxn t) := by
  refine ⟨h.1, fun x hx ho => ?_⟩
  obtain ⟨y, hy, himp⟩ := ht x hx
  exact himp (h.2 y hy ho)

theorem Stirred.perform (st : Stmt) {s : Duck} (h : Stirred s) : Stirred (Duck.perform st.core s).2 := by
  cases hst : st.core with
  | select =>
    simp only [Duck.perform, Duck.read]
    split
    · exact h
    · rename_i t ht
      exact h.setTxn (by rintro x ⟨⟩; exact ⟨t, ht, id⟩)
  | write c =>
    simp only [Duck.perform]
    split
    · rw [Stirred, Duck.publish_conn]
      exact h
    · rename_i t ht
      split
      · exact h
      · exact h.setTxn (by rintro x ⟨⟩; exact ⟨t, ht, id⟩)
  | temp o =>
    simp only [Duck.perform]
    split
    · exact h
    · rename_i t ht
      exact h.setTxn (by rintro x ⟨⟩; exact ⟨t, ht, id⟩)
  | beginTxn ro =>
    simp only [Duck.perform]
    split
    · refine ⟨Nat.le_succ_of_le h.1, fun t _ ho => ?_⟩
      have hone := h.1
      simp only at ho
      omega
    · exact h
  | commit =>
    simp only [Duck.perform]
    split
    · exact h
    · exact ⟨h.1, by simp⟩
  | rollback =>
    simp only [Duck.perform]
    split
    · exact h
    · exact h.setTxn (by simp)
  | setCommitMessage n =>
    simp only [Duck.perform]
    split
    · exact h
    · rename_i t ht
      exact h.setTxn (by rintro x ⟨⟩; exact ⟨t, ht, by simp⟩)
  | session | attach => exact h
  | explain a b => exact absurd hst (st.core_ne_explain a b)

/-- It stays so. -/
theorem Stirred.exec (st : Stmt) {s : Duck} (h : Stirred s) : Stirred (s.exec st).2 := by
  have hadv : Stirred s.advance := h
  rcases s.exec_cases st with ⟨msg, breaks, -, he⟩ | ⟨-, -, he⟩ | ⟨-, -, he⟩ <;> rw [he]
  · simp only [Duck.broken]
    split
    · exact hadv
    · rename_i t ht
      split
      · split
        · exact hadv.setTxn (by simp)
        · exact hadv.setTxn (by rintro x ⟨⟩; exact ⟨t, ht, id⟩)
      · exact hadv
  · exact hadv
  · rw [Duck.perform_core]
    exact hadv.perform st

/-- A statement that acts on the transaction stirs it. -/
theorem stirred_of_inside {st : Stmt} {s : Duck} {t : Txn} (hst : ActsInside st.core) (hs : s.Healthy)
    (ht : s.conn.txn = some t) (ho : 1 ≤ s.conn.opened) : Stirred (s.exec st).2 := by
  have hadv : s.advance.conn.txn = some t := ht
  rw [hs.exec_eq, Duck.perform_core]
  generalize st.core = c at *
  cases hst with
  | commit =>
    simp only [Duck.perform, hadv]
    exact ⟨ho, by simp⟩
  | rollback =>
    simp only [Duck.perform, hadv]
    exact ⟨ho, by simp⟩
  | setCommitMessage n =>
    simp only [Duck.perform, hadv]
    exact ⟨ho, by rintro x ⟨⟩ -; simp⟩

/-! ### A text that does not only read -/

theorem runAll_cons_of_ok_snd {st : Stmt} {s t : Duck} {r : Reading} (h : s.exec st = (.ok r, t)) (sts : List Stmt) :
    (runAll (st :: sts) s).2 = (runAll sts t).2 := by
  cases sts with
  | nil =>
    rw [runAll_singleton_of_ok h]
    rfl
  | cons st' sts => rw [runAll_cons_cons_of_ok h]

/-- Where a text goes on behind its first statement. -/
theorem runAll_cons_snd (st : Stmt) (sts : List Stmt) (s : Duck) :
    (runAll (st :: sts) s).2 = (s.exec st).2 ∨ (runAll (st :: sts) s).2 = (runAll sts (s.exec st).2).2 := by
  rcases hx : s.exec st with ⟨m | r, u⟩
  · left
    rw [runAll_cons_of_error hx]
  · right
    exact runAll_cons_of_ok_snd hx sts

/-- Behind a query a healthy connection goes on. -/
theorem runAll_cons_of_select {st : Stmt} {sts : List Stmt} {s : Duck} (hst : st.core = .select) (hs : s.Healthy) :
    (runAll (st :: sts) s).2 = (runAll sts (s.exec st).2).2 := by
  obtain ⟨r, u, hread⟩ := s.advance.read_eq
  have hexec : s.exec st = (.ok r, (s.exec st).2) := by
    rw [hs.exec_eq, Duck.perform_core, hst]
    simp only [Duck.perform, hread]
  exact runAll_cons_of_ok_snd hexec sts

theorem toll_runAll (sts : List Stmt) (s : Duck) : s.toll ≤ (runAll sts s).2.toll := by
  have hruns := @runAll_runs (fun _ => True) sts (fun _ _ => trivial) s
  exact hruns.invariant (I := fun u => s.toll ≤ u.toll) (fun st u _ hu => hu.trans (toll_exec st u)) le_rfl

theorem stirred_runAll (sts : List Stmt) {s : Duck} (h : Stirred s) : Stirred (runAll sts s).2 := by
  have hruns := @runAll_runs (fun _ => True) sts (fun _ _ => trivial) s
  exact hruns.invariant (I := Stirred) (fun st u _ hu => hu.exec st) h

/-- A query leaves a connection in autocommit there, and in its transaction where it is in one. -/
theorem deeds_txn {s t : Duck} (h : t.deeds = s.deeds) :
    (t.conn.txn.map fun x => (x.id, x.changes, x.temps, x.note)) =
      (s.conn.txn.map fun x => (x.id, x.changes, x.temps, x.note)) := congrArg Deeds.txn h

/-- The first statement of a text that does not only read acts outside a transaction. -/
theorem runAll_outside {sts : List Stmt} {st : Stmt} {s : Duck}
    (hfirst : sts.find? (fun st => decide (st.core ≠ .select)) = some st) (hst : ActsOutside st.core) (hs : s.Healthy)
    (htxn : s.conn.txn = none) : s.toll < (runAll sts s).2.toll := by
  induction sts generalizing s with
  | nil => simp at hfirst
  | cons st' sts ih =>
    by_cases hsel : st'.core = .select
    · have hdeeds := deeds_exec hsel s
      rw [runAll_cons_of_select hsel hs]
      have htoll : (s.exec st').2.toll = s.toll := by
        have := congrArg (fun d : Deeds =>
          d.own.length + d.attached.length + d.session.length + d.temps.length + d.opened) hdeeds
        exact this
      have htxn' : (s.exec st').2.conn.txn = none := by
        have := deeds_txn hdeeds
        rw [htxn] at this
        simpa using this
      rw [← htoll]
      refine ih ?_ (hs.exec st') htxn'
      simpa [hsel] using hfirst
    · have heq : st' = st := by simpa [hsel] using hfirst
      rw [heq] at *
      have hlt := toll_of_outside hst hs htxn
      rcases runAll_cons_snd st sts s with h | h <;> rw [h]
      · exact hlt
      · exact hlt.trans_le (toll_runAll sts _)

/-- It acts inside one. -/
theorem runAll_inside {sts : List Stmt} {st : Stmt} {s : Duck}
    (hfirst : sts.find? (fun st => decide (st.core ≠ .select)) = some st) (hst : ActsInside st.core) (hs : s.Healthy)
    (htxn : s.conn.txn.isSome) (ho : 1 ≤ s.conn.opened) : Stirred (runAll sts s).2 := by
  induction sts generalizing s with
  | nil => simp at hfirst
  | cons st' sts ih =>
    by_cases hsel : st'.core = .select
    · have hdeeds := deeds_exec hsel s
      rw [runAll_cons_of_select hsel hs]
      have htxn' : (s.exec st').2.conn.txn.isSome := by
        have := congrArg Option.isSome (deeds_txn hdeeds)
        simpa [htxn] using this
      have ho' : (s.exec st').2.conn.opened = s.conn.opened := congrArg Deeds.opened hdeeds
      refine ih ?_ (hs.exec st') htxn' (by omega)
      simpa [hsel] using hfirst
    · have heq : st' = st := by simpa [hsel] using hfirst
      rw [heq] at *
      obtain ⟨t, ht⟩ := Option.isSome_iff_exists.1 htxn
      have hstir := stirred_of_inside hst hs ht ho
      rcases runAll_cons_snd st sts s with h | h <;> rw [h]
      · exact hstir
      · exact stirred_runAll sts hstir

/-- Something was done since `s` that is not taken back. -/
def Marked (s u : Duck) : Prop := s.toll < u.toll ∨ Stirred u

theorem Marked.runs {P : Stmt → Prop} {s u v : Duck} (h : Marked s u) (hruns : Duck.RunsBy P u v) : Marked s v := by
  refine hruns.invariant (I := Marked s) ?_ h
  rintro st w - (htoll | hstir)
  · exact .inl (htoll.trans_le (toll_exec st w))
  · exact .inr (hstir.exec st)

/-- Both marks are deeds. -/
theorem Marked.deeds_ne {s u : Duck} (h : Marked s u) (hs : ¬Stirred s) : u.deeds ≠ s.deeds := by
  intro hdeeds
  rcases h with htoll | ⟨ho, hstir⟩
  · exact htoll.ne' (congrArg (fun d : Deeds =>
      d.own.length + d.attached.length + d.session.length + d.temps.length + d.opened) hdeeds)
  · have hopened : u.conn.opened = s.conn.opened := congrArg Deeds.opened hdeeds
    refine hs ⟨hopened ▸ ho, fun t ht hone hnote => ?_⟩
    have htxn := deeds_txn hdeeds
    rw [ht] at htxn
    obtain ⟨t', ht', heq⟩ := Option.map_eq_some_iff.1 htxn
    refine hstir t' ht' (hopened.trans hone) ?_
    rw [show t'.note = t.note from congrArg (fun x => x.2.2.2) heq, hnote]

/-- **A text that does not only read leaves a mark**, from some state on which nothing is scheduled to
fail. -/
theorem runAll_moves {sts : List Stmt} (h : ∃ st ∈ sts, st.core ≠ .select) :
    ∃ s : Duck, s.Healthy ∧ ¬Stirred s ∧ Marked s (runAll sts s).2 := by
  obtain ⟨st, hfirst⟩ : ∃ st, sts.find? (fun st => decide (st.core ≠ .select)) = some st := by
    obtain ⟨st, hmem, hst⟩ := h
    exact Option.isSome_iff_exists.1 (List.find?_isSome.2 ⟨st, hmem, by simpa using hst⟩)
  have hst : st.core ≠ .select := by simpa using List.find?_some hfirst
  rcases acts_of_ne_select hst with hout | hin
  · have hs : (Duck.fresh []).Healthy := ⟨rfl, by rintro t ⟨⟩⟩
    exact ⟨.fresh [], hs, fun hstir => absurd hstir.1 (by decide), .inl (runAll_outside hfirst hout hs rfl)⟩
  · -- The first transaction of a connection, just opened.
    have hs : ((Duck.fresh []).exec (.beginTxn false)).2.Healthy := ⟨rfl, by rintro t ⟨⟩; rfl⟩
    exact ⟨((Duck.fresh []).exec (.beginTxn false)).2, hs, fun hstir => hstir.2 _ rfl rfl rfl,
      .inr (runAll_inside hfirst hin hs rfl le_rfl)⟩

/-! ### Explaining -/

section

variable (g : Grammar)

/-- What a text leaves behind if its plan is asked for: what its statements leave behind. -/
theorem explainCells_snd (sql : Text) (fetch : Fetch) (s : Duck) :
    (explainCells g sql fetch s).2 = match g.parse sql with
      | .error _ => s
      | .ok sts => (runAll sts s).2 := by
  unfold explainCells
  cases hp : g.parse sql with
  | error e => rfl
  | ok sts =>
    simp only
    rw [← prepareAll_then_last]
    rcases hx : prepareAll sts s with ⟨o | e | _, u⟩
    · rw [Act.bind_of_ok (show Act.mapErr Errclass.classifyMessage (prepareAll sts) s = (.ok o, u) by
        rw [Act.mapErr_apply, hx]; rfl), Act.bind_of_ok hx]
      cases o with
      | none => rfl
      | some st =>
        simp only [Act.bind_apply, Act.mapErr_apply, execute_apply]
        rcases (u.exec st).1 with e | r
        · rfl
        · cases fetch <;> rfl
    · rw [Act.bind_of_err (show Act.mapErr Errclass.classifyMessage (prepareAll sts) s = (.err _, u) by
        rw [Act.mapErr_apply, hx]; rfl), Act.bind_of_err hx]
    · rw [Act.bind_of_unwound (show Act.mapErr Errclass.classifyMessage (prepareAll sts) s = (.unwound, u) by
        rw [Act.mapErr_apply, hx]; rfl), Act.bind_of_unwound hx]

/-- Whether an explain runs the prefixed text in its plain form too, and from which state. -/
theorem runExplain_snd (sql : Text) (json text : Fetch) (s : Duck) (h : refusesAnalyze sql = false) :
    (runExplain g sql json text s).2 = match (explainCells g (explainJson ++ sql) json s).1 with
      | .err _ => (explainCells g (explainPlain ++ sql) text (explainCells g (explainJson ++ sql) json s).2).2
      | _ => (explainCells g (explainJson ++ sql) json s).2 := by
  rw [runExplain, if_neg (by simp [h])]
  rcases hx : explainCells g (explainJson ++ sql) json s with ⟨n | e | _, u⟩
  · rw [Act.bind_of_ok (Act.attempt_of_ok hx)]
    rfl
  · rw [Act.bind_of_ok (Act.attempt_of_err hx)]
    simp only [Act.bind_apply]
    rcases explainCells g (explainPlain ++ sql) text u with ⟨n | e | _, v⟩ <;> rfl
  · rw [Act.bind_apply, Act.attempt, hx]

/-- Every statement of the text only reads. -/
def OnlyReads (sql : Text) : Prop := ∀ sts, g.parse sql = .ok sts → ∀ st ∈ sts, st.core = .select

/-- An explain of the text leaves no deed behind, in every state, under every schedule and however fetching
its cells ends. -/
def ExplainsOnly (sql : Text) : Prop := ∀ json text s, (runExplain g sql json text s).2.deeds = s.deeds

variable {g}

theorem deeds_explainCells {sql : Text} (h : OnlyReads g sql) (fetch : Fetch) (s : Duck) :
    (explainCells g sql fetch s).2.deeds = s.deeds := by
  rw [explainCells_snd]
  cases hp : g.parse sql with
  | error e => rfl
  | ok sts => exact deeds_runs (runAll_runs (h sts hp) s)

theorem explainsOnly_of_onlyReads {sql : Text} (hjson : OnlyReads g (explainJson ++ sql))
    (hplain : OnlyReads g (explainPlain ++ sql)) : ExplainsOnly g sql := by
  intro json text s
  cases hrefuse : refusesAnalyze sql with
  | true => rw [runExplain, if_pos hrefuse]; rfl
  | false =>
    rw [runExplain_snd g sql json text s hrefuse]
    have hfirst := deeds_explainCells hjson json s
    split
    · exact (deeds_explainCells hplain text _).trans hfirst
    · exact hfirst

/-- A text that has a statement of another kind, as a text whose plan is asked for. -/
theorem marked_of_not_onlyReads {sql : Text} (h : ¬OnlyReads g sql) (fetch : Fetch) :
    ∃ s : Duck, s.Healthy ∧ ¬Stirred s ∧ Marked s (explainCells g sql fetch s).2 := by
  unfold OnlyReads at h
  push Not at h
  obtain ⟨sts, hp, hst⟩ := h
  obtain ⟨s, hs, hfirst, hmark⟩ := runAll_moves hst
  exact ⟨s, hs, hfirst, by rwa [explainCells_snd, hp]⟩

theorem Marked.explainCells {s u : Duck} (h : Marked s u) (sql : Text) (fetch : Fetch) :
    Marked s (explainCells g sql fetch u).2 := by
  rw [explainCells_snd]
  split
  · exact h
  · exact h.runs (runAll_runs (P := fun _ => True) (fun _ _ => trivial) u)

/-- The JSON form is not empty, whatever the text is. -/
theorem parse_explainJson_ne_nil {sql : Text} {sts : List Stmt} (h : g.parse (explainJson ++ sql) = .ok sts) :
    sts ≠ [] := by
  rintro rfl
  rw [Grammar.parse] at h
  cases hl : lex (explainJson ++ sql) with
  | none => simp [hl] at h
  | some items =>
    obtain ⟨js, rfl, -⟩ := (takes_explainJson sql).lexes_iff.1 (lex_eq_some.1 hl)
    obtain ⟨first, rest, -, hseg⟩ := @segments_append explainJsonItems (by decide) (by decide) js
    simp only [hl, hseg, List.mapM_cons] at h
    cases hk : g.kind (explainJsonItems.filter (fun i => !i.isGap) ++ first) with
    | error e =>
      rw [hk] at h
      cases h
    | ok st =>
      rw [hk] at h
      cases hr : (rest.filter (· ≠ [])).mapM g.kind with
      | error e =>
        rw [hr] at h
        cases h
      | ok sts =>
        rw [hr] at h
        cases h

/-- A schedule can make the JSON form fail and leave any state behind. -/
theorem explainJson_fails {sql : Text} (hjson : OnlyReads g (explainJson ++ sql)) (json : Fetch) {s : Duck}
    (hs : s.ticks = []) :
    ∃ s₀ e, s₀.deeds = s.deeds ∧ explainCells g (explainJson ++ sql) json s₀ = (.err e, s) := by
  cases hp : g.parse (explainJson ++ sql) with
  | error m =>
    refine ⟨s, Errclass.classifyMessage m, rfl, ?_⟩
    rw [explainCells, hp]
    rfl
  | ok sts =>
    obtain ⟨st, rest, rfl⟩ := List.exists_cons_of_ne_nil (parse_explainJson_ne_nil hp)
    have hst : st.core = .select := hjson _ hp st (List.mem_cons_self ..)
    have hne : st ≠ .rollback := by
      rintro rfl
      simp [Stmt.core] at hst
    let s₀ : Duck := { s with ticks := [⟨[], .fails [] false⟩] }
    have hexec : s₀.exec st = (.error [], s) := by
      have hstop : s₀.stop? st = some ([], false) := by simp [Duck.stop?, s₀, hne]
      have hadv : s₀.advance = s := by
        rcases s with ⟨db, conn, ticks, armed⟩
        cases hs
        rfl
      have hbroken : s.broken st false = s := by
        unfold Duck.broken
        split <;> simp
      rw [Duck.exec, hstop, hadv]
      simp only [hbroken]
    have hexecute : execute st s₀ = (.err [], s) := execute_of_error hexec
    refine ⟨s₀, Errclass.classifyMessage [], rfl, ?_⟩
    rw [explainCells, hp]
    cases rest with
    | nil =>
      rw [Act.bind_of_ok (show Act.mapErr Errclass.classifyMessage (prepareAll [st]) s₀ = (.ok (some st), s₀) from rfl)]
      exact Act.bind_of_err (by rw [Act.mapErr_apply, hexecute]; rfl) _
    | cons st' rest =>
      refine Act.bind_of_err ?_ _
      simp only [prepareAll_cons_cons]
      rw [Act.mapErr_apply, Act.bind_of_err hexecute]
      rfl

/-- **Explaining.** In every state, under every schedule and however its cells are fetched, an explain of
the text leaves no deed behind, exactly when the guard refuses the text or every statement of both its
forms only reads. -/
theorem explain_only_reads_iff (g : Grammar) (sql : Text) :
    ExplainsOnly g sql ↔ refusesAnalyze sql ∨ (OnlyReads g (explainJson ++ sql) ∧ OnlyReads g (explainPlain ++ sql)) := by
  constructor
  · intro h
    by_contra hno
    obtain ⟨hrefuse, hforms⟩ := not_or.1 hno
    have hrefuse' : refusesAnalyze sql = false := by simpa using hrefuse
    by_cases hjson : OnlyReads g (explainJson ++ sql)
    · -- The JSON form fails, and the plain form runs.
      obtain ⟨s, hs, hfirst, hmark⟩ := marked_of_not_onlyReads (fun hplain => hforms ⟨hjson, hplain⟩) (.done 0)
      obtain ⟨s₀, e, hdeeds, hfails⟩ := explainJson_fails hjson (.done 0) hs.1
      have hout := h (.done 0) (.done 0) s₀
      rw [runExplain_snd g sql _ _ _ hrefuse', hfails, hdeeds] at hout
      exact hmark.deeds_ne hfirst hout
    · -- The JSON form runs; if it fails behind the deed, the plain form does not take it back.
      obtain ⟨s, hs, hfirst, hmark⟩ := marked_of_not_onlyReads hjson (.done 0)
      have hout := h (.done 0) (.done 0) s
      rw [runExplain_snd g sql _ _ _ hrefuse'] at hout
      split at hout
      · exact (hmark.explainCells _ _).deeds_ne hfirst hout
      · exact hmark.deeds_ne hfirst hout
  · rintro (hrefuse | ⟨hjson, hplain⟩) json text s
    · rw [runExplain, if_pos hrefuse]
      rfl
    · exact explainsOnly_of_onlyReads hjson hplain json text s

end

/-- The second statement of a text is run; and a comment in front of `ANALYZE` passes the guard, so that
the plain form runs what is behind it. -/
theorem explain_executes :
    let leaves (sql : String) := (runExplain keywordGrammar sql.toList (.done 1) (.done 1) (.fresh [])).2.own
    leaves "SELECT 1; DROP TABLE t" = [⟨.here, none, ["DROPTABLEt".toList]⟩] ∧
      leaves "/**/ANALYZE DELETE FROM t" = [⟨.here, none, ["DELETEFROMt".toList]⟩] := by
  decide +kernel

end Latiq.EngineDuckdb
