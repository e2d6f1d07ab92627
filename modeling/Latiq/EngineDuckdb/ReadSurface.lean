import Latiq.EngineDuckdb.Bracket

/-!
# The read surface

`read_query` and `read_arrow` run the caller's text on a pooled connection,
inside the read-only transaction of `in_read_txn`. DuckDB refuses to write in it,
but the text can end it: behind a `COMMIT` the connection is in autocommit, and
then it writes what it is told to.

## The model

* `Phase` — whose transaction the connection is in: ours, none, or one the text
  opened itself.
* `Phase.after` — what a statement does in a phase, and `Phase.harmless` the same
  for a whole text. Both look at the text only.
* `OneSnapshot` — what a read is meant to do: publish and attach nothing, and
  answer from the transaction it opened.

## What is proved

* `exec_after` — **the phases say what statements do**, one statement at a time;
  `runAll_of_harmless` and `runAll_of_harmful` say it of a text.
* `samePin_of_runs` — a transaction reads one snapshot from its first query to its
  end.
* `read_surface_iff` — a text keeps the promise in every state and under every
  schedule exactly when the classifier refuses it or its statements are harmless.
* `commit_escapes_the_read` — the classifier answers `Read` to a text that commits
  our transaction and then writes.
-/

namespace Latiq.EngineDuckdb

open SqlLex (Text)
open Unwind
open Latiq.Engine (classify SqlShape)

namespace Duck

/-! ### What a call can leave behind on the pond -/

/-- How much of it there is. -/
def weight (s : Duck) : ℕ := s.footprint.1.length + s.footprint.2.length

/-- No statement takes anything of it away. -/
theorem exec_weight (st : Stmt) (s : Duck) : s.weight ≤ (s.exec st).2.weight :=
  Nat.add_le_add (Grows.own (s.exec_grows st)).length_le (exec_piles st s).attached.length_le

/-! ### A transaction reads one snapshot -/

/-- `r` was read from transaction `k`, in which the connection still is. -/
def Reads (k : ℕ) (s : Duck) (r : Reading) : Prop :=
  ∃ t, s.conn.txn = some t ∧ t.id = k ∧ r.txn = some k ∧ (r.latest = none ∨ t.pin = some r.latest)

/-- The transaction `s'` is in, if it is an older one, was open in `s`, and saw the same snapshot
there. -/
def SamePin (s s' : Duck) : Prop :=
  s.conn.opened ≤ s'.conn.opened ∧
    ∀ t', s'.conn.txn = some t' → t'.id < s.conn.opened →
      ∃ t, s.conn.txn = some t ∧ t.id = t'.id ∧ ∀ v, t.pin = some v → t'.pin = some v

instance : Std.Refl SamePin := ⟨fun _ => ⟨le_rfl, fun t' h _ => ⟨t', h, rfl, fun _ => id⟩⟩⟩

instance : IsTrans Duck SamePin where
  trans := by
    rintro s s' s'' ⟨hle, h⟩ ⟨hle', h'⟩
    refine ⟨hle.trans hle', fun t'' ht hlt => ?_⟩
    obtain ⟨t', ht', hid', hpin'⟩ := h' t'' ht (hlt.trans_le hle)
    obtain ⟨t, ht, hid, hpin⟩ := h t' ht' (hid'.trans_lt hlt)
    exact ⟨t, ht, hid.trans hid', fun v hv => hpin' v (hpin v hv)⟩

/-- Replacing the open transaction by one that sees the same. -/
theorem samePin_setTxn {s : Duck} {t' : Option Txn}
    (h : ∀ x', t' = some x' → ∃ x, s.conn.txn = some x ∧ x.id = x'.id ∧ ∀ v, x.pin = some v → x'.pin = some v) :
    SamePin s (s.setTxn t') := ⟨le_rfl, fun x' hx' _ => h x' hx'⟩

theorem samePin_broken (s : Duck) (st : Stmt) (b : Bool) : SamePin s (s.broken st b) := by
  unfold broken
  split
  · exact Std.Refl.refl s
  · rename_i t ht
    split
    · split
      · exact samePin_setTxn (by simp)
      · exact samePin_setTxn (by rintro x' ⟨⟩; exact ⟨t, ht, rfl, fun _ => id⟩)
    · exact Std.Refl.refl s

theorem samePin_perform (st : Stmt) (s : Duck) : SamePin s (perform st.core s).2 := by
  cases hst : st.core with
  | select =>
    simp only [perform, read]
    split
    · exact Std.Refl.refl s
    · rename_i t ht
      exact samePin_setTxn (by rintro x' ⟨⟩; exact ⟨t, ht, rfl, fun v hv => by simp [hv]⟩)
  | write c =>
    simp only [perform]
    split
    · rename_i hn
      exact ⟨by simp, fun t' ht' => by simp [hn] at ht'⟩
    · rename_i t ht
      split
      · exact Std.Refl.refl s
      · exact samePin_setTxn (by rintro x' ⟨⟩; exact ⟨t, ht, rfl, fun v hv => by simp [hv]⟩)
  | beginTxn ro =>
    simp only [perform]
    split
    · refine ⟨Nat.le_succ _, ?_⟩
      rintro t' ⟨⟩ hlt
      exact absurd hlt (lt_irrefl _)
    · exact Std.Refl.refl s
  | commit =>
    simp only [perform]
    split
    · exact Std.Refl.refl s
    · exact ⟨le_rfl, fun t' ht' => by simp at ht'⟩
  | rollback =>
    simp only [perform]
    split
    · exact Std.Refl.refl s
    · exact samePin_setTxn (by simp)
  | temp o =>
    simp only [perform]
    split
    · exact ⟨le_rfl, fun t' ht' _ => ⟨t', ht', rfl, fun _ => id⟩⟩
    · rename_i t ht
      exact samePin_setTxn (by rintro x' ⟨⟩; exact ⟨t, ht, rfl, fun _ => id⟩)
  | setCommitMessage n =>
    simp only [perform]
    split
    · exact Std.Refl.refl s
    · rename_i t ht
      exact samePin_setTxn (by rintro x' ⟨⟩; exact ⟨t, ht, rfl, fun _ => id⟩)
  | session | attach => exact ⟨le_rfl, fun t' ht' _ => ⟨t', ht', rfl, fun _ => id⟩⟩
  | explain a st' => exact absurd hst (st.core_ne_explain a st')

/-- **A transaction keeps its snapshot** through every statement. -/
theorem samePin_exec (st : Stmt) (s : Duck) : SamePin s (s.exec st).2 :=
  exec_keeps (fun _ => ⟨le_rfl, fun t' ht' _ => ⟨t', ht', rfl, fun _ => id⟩⟩) samePin_broken st
    (samePin_perform st) s

theorem samePin_of_runs {P : Stmt → Prop} {s s' : Duck} (h : RunsBy P s s') : SamePin s s' :=
  h.keeps fun st s _ => samePin_exec st s

/-- What was read from a transaction stays so for as long as the connection is in it. -/
theorem Reads.later {k : ℕ} {s s' : Duck} {r : Reading} {t' : Txn} (h : s.Reads k r) (hpin : SamePin s s')
    (hk : k < s.conn.opened) (ht : s'.conn.txn = some t') (hid : t'.id = k) : s'.Reads k r := by
  obtain ⟨t, htx, -, hr, hlatest⟩ := h
  obtain ⟨x, hx, -, hv⟩ := hpin.2 t' ht (hid ▸ hk)
  rw [htx] at hx
  cases hx
  exact ⟨t', ht, hid, hr, hlatest.imp id (hv _)⟩

end Duck

/-! ### Whose transaction the connection is in -/

/-- Whose transaction the connection is in while the text of a read runs. -/
inductive Phase where
  /-- The one `in_read_txn` opened. -/
  | ours
  /-- None. -/
  | auto
  /-- One that the text opened, and whether it has written in it. -/
  | theirs (readOnly dirty : Bool)
  deriving DecidableEq, Repr

/-- What becomes of a statement. -/
inductive Verdict where
  /-- It publishes or attaches something. -/
  | harm
  /-- It fails, and the text ends there. -/
  | stop
  /-- It only goes on. -/
  | goes (p : Phase)
  deriving DecidableEq, Repr

/-- What becomes of a statement in a phase. -/
def Phase.after (p : Phase) (st : Stmt) : Verdict :=
  match st.core, p with
  | .attach _, _ => .harm
  | .write _, .ours => .stop
  | .write _, .auto => .harm
  | .write _, .theirs ro _ => if ro then .stop else .goes (.theirs false true)
  | .beginTxn ro, .auto => .goes (.theirs ro false)
  | .beginTxn _, _ => .stop
  | .commit, .ours => .goes .auto
  | .commit, .theirs _ dirty => if dirty then .harm else .goes .auto
  | .commit, .auto => .stop
  | .rollback, .auto => .stop
  | .rollback, _ => .goes .auto
  | _, p => .goes p

/-- Whether a text can run from a phase to its end without harm, and does not end in a transaction of
its own, which our `COMMIT` would commit. -/
def Phase.harmless : Phase → List Stmt → Bool
  | .theirs .., [] => false
  | _, [] => true
  | p, st :: sts =>
    match p.after st with
    | .harm => false
    | .stop => true
    | .goes q => q.harmless sts

/-- The connection is in the phase, where our transaction has the number `k`. -/
inductive InPhase (k : ℕ) (s : Duck) : Phase → Prop where
  | ours {t : Txn} : s.conn.txn = some t → t.id = k → t.readOnly = true → t.changes = [] → k < s.conn.opened →
      InPhase k s .ours
  | auto : s.conn.txn = none → k < s.conn.opened → InPhase k s .auto
  | theirs {t : Txn} {ro dirty : Bool} : s.conn.txn = some t → t.id ≠ k → t.readOnly = ro →
      (t.changes ≠ [] ↔ dirty) → k < s.conn.opened → InPhase k s (.theirs ro dirty)

/-- What the rows of a statement were read from, by the phase behind it. -/
def Phase.Gives (k : ℕ) (s : Duck) (r : Reading) : Phase → Prop
  | .ours => s.Reads k r
  | .auto => True
  | .theirs .. => r.txn ≠ some k

/-- What a verdict says of a statement that succeeded. -/
def Verdict.Holds (k : ℕ) (r : Reading) (s s' : Duck) : Verdict → Prop
  | .harm => s.weight < s'.weight
  | .stop => False
  | .goes q => InPhase k s' q ∧ s'.footprint = s.footprint ∧ q.Gives k s' r

theorem InPhase.opened {k : ℕ} {s : Duck} {p : Phase} (h : InPhase k s p) : k < s.conn.opened := by
  cases h <;> assumption

theorem weight_publish {s : Duck} {n : Option Note} {cs : List Text} (h : cs ≠ []) :
    s.weight < (s.publish n cs).weight := by
  simp only [Duck.weight, Duck.footprint, Duck.own_publish, if_neg h, Duck.publish_attached, List.length_cons]
  omega

/-- Our transaction. -/
theorem perform_after_ours {k : ℕ} {st : Stmt} {s s' : Duck} {r : Reading} (hp : InPhase k s .ours)
    (h : Duck.perform st.core s = (.ok r, s')) : (Phase.ours.after st).Holds k r s s' := by
  obtain ⟨t, ht, hid, hro, hch, hk⟩ : ∃ t, s.conn.txn = some t ∧ t.id = k ∧ t.readOnly = true ∧ t.changes = [] ∧
      k < s.conn.opened := by
    cases hp with
    | ours ht hid hro hch hk => exact ⟨_, ht, hid, hro, hch, hk⟩
  unfold Phase.after
  cases hc : st.core with
  | select =>
    simp only [hc, Duck.perform, Duck.read, ht, Prod.mk.injEq, Except.ok.injEq] at h
    obtain ⟨rfl, rfl⟩ := h
    exact ⟨.ours rfl hid hro hch hk, rfl, _, rfl, hid, by simp [hid], .inr rfl⟩
  | write c => simp [hc, Duck.perform, ht, hro] at h
  | beginTxn ro => simp [hc, Duck.perform, ht] at h
  | explain a b => exact absurd hc (st.core_ne_explain a b)
  | commit =>
    simp only [hc, Duck.perform, ht, hch, Duck.publish_nil, Prod.mk.injEq] at h
    obtain ⟨-, rfl⟩ := h
    exact ⟨.auto rfl hk, rfl, trivial⟩
  | rollback =>
    simp only [hc, Duck.perform, ht, Prod.mk.injEq] at h
    obtain ⟨-, rfl⟩ := h
    exact ⟨.auto rfl hk, rfl, trivial⟩
  | attach x =>
    simp only [hc, Duck.perform, Prod.mk.injEq] at h
    obtain ⟨-, rfl⟩ := h
    simp [Verdict.Holds, Duck.weight, Duck.footprint, Duck.own]
  | temp o =>
    simp only [hc, Duck.perform, ht, Prod.mk.injEq, Except.ok.injEq] at h
    obtain ⟨rfl, rfl⟩ := h
    exact ⟨.ours rfl hid hro hch hk, rfl, _, rfl, hid, by simp [hid], .inl rfl⟩
  | session x =>
    simp only [hc, Duck.perform, ht, Prod.mk.injEq, Except.ok.injEq] at h
    obtain ⟨rfl, rfl⟩ := h
    exact ⟨.ours rfl hid hro hch hk, rfl, _, rfl, hid, by simp [hid], .inl rfl⟩
  | setCommitMessage n =>
    simp only [hc, Duck.perform, ht, Prod.mk.injEq, Except.ok.injEq] at h
    obtain ⟨rfl, rfl⟩ := h
    exact ⟨.ours rfl hid hro hch hk, rfl, _, rfl, hid, by simp [hid], .inl rfl⟩

/-- Autocommit. -/
theorem perform_after_auto {k : ℕ} {st : Stmt} {s s' : Duck} {r : Reading} (hp : InPhase k s .auto)
    (h : Duck.perform st.core s = (.ok r, s')) : (Phase.auto.after st).Holds k r s s' := by
  obtain ⟨ht, hk⟩ : s.conn.txn = none ∧ k < s.conn.opened := by
    cases hp with
    | auto ht hk => exact ⟨ht, hk⟩
  unfold Phase.after
  cases hc : st.core with
  | select =>
    simp only [hc, Duck.perform, Duck.read, ht, Prod.mk.injEq] at h
    obtain ⟨-, rfl⟩ := h
    exact ⟨.auto ht hk, rfl, trivial⟩
  | write c =>
    simp only [hc, Duck.perform, ht, Prod.mk.injEq] at h
    obtain ⟨-, rfl⟩ := h
    exact weight_publish (by simp)
  | beginTxn ro =>
    simp only [hc, Duck.perform, ht, Prod.mk.injEq, Except.ok.injEq] at h
    obtain ⟨rfl, rfl⟩ := h
    have hne : s.conn.opened ≠ k := hk.ne'
    refine ⟨?_, rfl, by simpa [Phase.Gives] using hne⟩
    exact .theirs rfl hne rfl (by simp) (hk.trans (Nat.lt_succ_self _))
  | commit => simp [hc, Duck.perform, ht] at h
  | rollback => simp [hc, Duck.perform, ht] at h
  | explain a b => exact absurd hc (st.core_ne_explain a b)
  | attach x =>
    simp only [hc, Duck.perform, Prod.mk.injEq] at h
    obtain ⟨-, rfl⟩ := h
    simp [Verdict.Holds, Duck.weight, Duck.footprint, Duck.own]
  | temp o =>
    simp only [hc, Duck.perform, ht, Prod.mk.injEq] at h
    obtain ⟨-, rfl⟩ := h
    exact ⟨.auto rfl hk, rfl, trivial⟩
  | session x =>
    simp only [hc, Duck.perform, Prod.mk.injEq] at h
    obtain ⟨-, rfl⟩ := h
    exact ⟨.auto ht hk, rfl, trivial⟩
  | setCommitMessage n =>
    simp only [hc, Duck.perform, ht, Prod.mk.injEq] at h
    obtain ⟨-, rfl⟩ := h
    exact ⟨.auto ht hk, rfl, trivial⟩

/-- A transaction of the text. -/
theorem perform_after_theirs {k : ℕ} {st : Stmt} {s s' : Duck} {r : Reading} {ro dirty : Bool}
    (hp : InPhase k s (.theirs ro dirty)) (h : Duck.perform st.core s = (.ok r, s')) :
    ((Phase.theirs ro dirty).after st).Holds k r s s' := by
  obtain ⟨t, ht, hid, rfl, hch, hk⟩ : ∃ t, s.conn.txn = some t ∧ t.id ≠ k ∧ t.readOnly = ro ∧
      (t.changes ≠ [] ↔ dirty) ∧ k < s.conn.opened := by
    cases hp with
    | theirs ht hid hro hch hk => exact ⟨_, ht, hid, hro, hch, hk⟩
  unfold Phase.after
  have hgives (v : Option ℕ) : (Phase.theirs t.readOnly dirty).Gives k s' ⟨some t.id, v⟩ := by
    simpa [Phase.Gives] using hid
  cases hc : st.core with
  | select =>
    simp only [hc, Duck.perform, Duck.read, ht, Prod.mk.injEq, Except.ok.injEq] at h
    obtain ⟨rfl, rfl⟩ := h
    exact ⟨.theirs rfl hid rfl hch hk, rfl, hgives _⟩
  | write c =>
    simp only [hc, Duck.perform, ht] at h
    cases hro : t.readOnly with
    | true => simp [hro] at h
    | false =>
      simp only [hro, Bool.false_eq_true, if_false, Prod.mk.injEq, Except.ok.injEq] at h
      obtain ⟨rfl, rfl⟩ := h
      exact ⟨.theirs rfl hid rfl (by simp) hk, rfl, by simpa [Phase.Gives] using hid⟩
  | beginTxn ro' => simp [hc, Duck.perform, ht] at h
  | explain a b => exact absurd hc (st.core_ne_explain a b)
  | commit =>
    simp only [hc, Duck.perform, ht, Prod.mk.injEq] at h
    obtain ⟨-, rfl⟩ := h
    cases dirty with
    | true => exact weight_publish (s := s) (n := t.note) (hch.2 rfl)
    | false =>
      have hnil : t.changes = [] := by simpa using hch
      simp only [hnil, Duck.publish_nil]
      exact ⟨.auto rfl hk, rfl, trivial⟩
  | rollback =>
    simp only [hc, Duck.perform, ht, Prod.mk.injEq] at h
    obtain ⟨-, rfl⟩ := h
    exact ⟨.auto rfl hk, rfl, trivial⟩
  | attach x =>
    simp only [hc, Duck.perform, Prod.mk.injEq] at h
    obtain ⟨-, rfl⟩ := h
    simp [Verdict.Holds, Duck.weight, Duck.footprint, Duck.own]
  | temp o =>
    simp only [hc, Duck.perform, ht, Prod.mk.injEq, Except.ok.injEq] at h
    obtain ⟨rfl, rfl⟩ := h
    exact ⟨.theirs rfl hid rfl hch hk, rfl, hgives _⟩
  | session x =>
    simp only [hc, Duck.perform, ht, Prod.mk.injEq, Except.ok.injEq] at h
    obtain ⟨rfl, rfl⟩ := h
    exact ⟨.theirs rfl hid rfl hch hk, rfl, hgives _⟩
  | setCommitMessage n =>
    simp only [hc, Duck.perform, ht, Prod.mk.injEq, Except.ok.injEq] at h
    obtain ⟨rfl, rfl⟩ := h
    exact ⟨.theirs rfl hid rfl hch hk, rfl, hgives _⟩

theorem InPhase.advance {k : ℕ} {s : Duck} {p : Phase} (h : InPhase k s p) : InPhase k s.advance p := by
  cases h with
  | ours ht hid hro hch hk => exact .ours ht hid hro hch hk
  | auto ht hk => exact .auto ht hk
  | theirs ht hid hro hch hk => exact .theirs ht hid hro hch hk

/-- **The phases say what a statement does** that succeeds. -/
theorem exec_after {k : ℕ} {p : Phase} {st : Stmt} {s s' : Duck} {r : Reading} (hp : InPhase k s p)
    (h : s.exec st = (.ok r, s')) : (p.after st).Holds k r s s' := by
  obtain ⟨-, -, hperf⟩ := Duck.exec_ok h
  rw [Duck.perform_core] at hperf
  have hholds : (p.after st).Holds k r s.advance s' := by
    cases p with
    | ours => exact perform_after_ours hp.advance hperf
    | auto => exact perform_after_auto hp.advance hperf
    | theirs ro dirty => exact perform_after_theirs hp.advance hperf
  cases hv : p.after st with
  | harm =>
    rw [hv] at hholds
    simpa [Verdict.Holds, Duck.weight] using hholds
  | stop =>
    rw [hv] at hholds
    exact hholds
  | goes q =>
    rw [hv] at hholds
    simpa [Verdict.Holds] using hholds

/-- A query leaves our transaction open, also one that fails. -/
theorem ours_exec_select {k : ℕ} {s : Duck} (hp : InPhase k s .ours) : InPhase k (s.exec .select).2 .ours := by
  rcases hx : s.exec .select with ⟨m | r, t⟩
  · rcases s.exec_cases .select with ⟨msg, breaks, -, he⟩ | ⟨-, -, he⟩ | ⟨-, -, he⟩
    · rw [hx, Prod.mk.injEq] at he
      cases hp with
      | ours ht hid hro hch hk =>
        rw [he.2]
        simp only [Duck.broken, Duck.advance_conn, ht]
        split
        · exact .ours rfl hid hro hch hk
        · exact .ours ht hid hro hch hk
    · rw [hx, Prod.mk.injEq] at he
      rw [he.2]
      exact hp.advance
    · rw [hx] at he
      rw [Duck.perform_error he.symm]
      exact hp.advance
  · exact (exec_after hp hx).1

/-! ### A whole text -/

/-- What a run of a text leaves: the phase it ends in, nothing on the pond, and what its last statement
was read from. -/
def Ran (k : ℕ) (s : Duck) (o : Ended Text (Option Reading)) (t : Duck) (P : Phase → Prop) : Prop :=
  t.footprint = s.footprint ∧
    ∀ a, o = .ok a → ∃ q, P q ∧ InPhase k t q ∧ ∀ r, a = some r → q.Gives k t r

/-- **A harmless text** leaves nothing behind, and ends in our transaction or in none. -/
theorem runAll_of_harmless {k : ℕ} {sts : List Stmt} {p : Phase} {s t : Duck} {o : Ended Text (Option Reading)}
    (hsafe : p.harmless sts) (hp : InPhase k s p) (h : runAll sts s = (o, t)) :
    Ran k s o t fun q => q.harmless [] := by
  induction sts generalizing p s with
  | nil =>
    cases h
    exact ⟨rfl, fun a ha => ⟨p, hsafe, hp, by cases ha; simp⟩⟩
  | cons st sts ih =>
    rcases hx : s.exec st with ⟨m | r, s'⟩
    · rw [runAll_cons_of_error hx] at h
      cases h
      exact ⟨Duck.footprint_of_exec_error hx, by simp⟩
    · have hafter := exec_after hp hx
      rw [Phase.harmless] at hsafe
      cases hv : p.after st with
      | harm => simp [hv] at hsafe
      | stop => simp [hv, Verdict.Holds] at hafter
      | goes q =>
        simp only [hv] at hsafe hafter
        obtain ⟨hq, hfoot, hgives⟩ := hafter
        rcases runAll_cons_cases hx h with ⟨rfl, rfl, rfl⟩ | h
        · exact ⟨hfoot, fun a ha => ⟨q, hsafe, hq, by cases ha; rintro _ ⟨⟩; exact hgives⟩⟩
        · obtain ⟨hfoot', hok⟩ := ih hsafe hq h
          exact ⟨hfoot'.trans hfoot, hok⟩

/-- A statement fails by itself only where it must stop. -/
theorem blocks_of_goes {k : ℕ} {p : Phase} {st : Stmt} {s : Duck} (hp : InPhase k s p) (hgo : p.after st ≠ .stop) :
    s.blocks st = false := by
  unfold Phase.after at hgo
  unfold Duck.blocks
  cases hc : st.core with
  | write c =>
    cases hp with
    | ours => simp [hc] at hgo
    | auto ht => simp [ht]
    | @theirs t ro dirty ht hid hro =>
      cases ro with
      | true => simp [hc] at hgo
      | false => simp [ht, hro]
  | beginTxn ro =>
    cases hp with
    | auto ht => simp [ht]
    | _ => simp [hc] at hgo
  | commit | rollback =>
    cases hp with
    | auto => simp [hc] at hgo
    | ours ht | theirs ht => simp [ht]
  | _ => rfl

/-- On a healthy connection a statement that need not stop succeeds. -/
theorem exec_healthy {k : ℕ} {p : Phase} {st : Stmt} {s : Duck} (hs : s.Healthy) (hp : InPhase k s p)
    (hgo : p.after st ≠ .stop) : ∃ r s', s.exec st = (.ok r, s') ∧ s'.Healthy := by
  obtain ⟨r, s', hx⟩ := hs.exec_ok (blocks_of_goes hp hgo)
  have hs' := hs.exec st
  rw [hx] at hs'
  exact ⟨r, s', hx, hs'⟩

/-- **A text that is not harmless**, on a healthy connection: it leaves something on the pond, or it ends
well in a transaction of its own, from which its last statement was read. -/
theorem runAll_of_harmful {k : ℕ} {sts : List Stmt} {p : Phase} {s t : Duck} {o : Ended Text (Option Reading)}
    (hbad : p.harmless sts = false) (hne : sts ≠ []) (hs : s.Healthy) (hp : InPhase k s p)
    (h : runAll sts s = (o, t)) :
    s.weight < t.weight ∨ ∃ r ro dirty, o = .ok (some r) ∧ r.txn ≠ some k ∧ InPhase k t (.theirs ro dirty) ∧
      t.Healthy ∧ t.footprint = s.footprint := by
  induction sts generalizing p s with
  | nil => exact absurd rfl hne
  | cons st sts ih =>
    rw [Phase.harmless] at hbad
    have hgo : p.after st ≠ .stop := by
      intro hv
      simp [hv] at hbad
    obtain ⟨r, s', hx, hs'⟩ := exec_healthy hs hp hgo
    have hafter := exec_after hp hx
    cases hv : p.after st with
    | stop => exact absurd hv hgo
    | harm =>
      -- The harm is done; whatever follows only adds to it.
      rw [hv] at hafter
      refine .inl (lt_of_lt_of_le hafter ?_)
      have hrest : Duck.RunsBy (fun _ => True) s' t := by
        rcases runAll_cons_cases hx h with ⟨-, -, rfl⟩ | h
        · exact .refl
        · have hk := @runAll_runs (fun _ => True) sts (fun _ _ => trivial) s'
          rwa [h] at hk
      refine hrest.invariant (I := fun u => s'.weight ≤ u.weight) ?_ le_rfl
      intro st u _ hu
      exact hu.trans (u.exec_weight st)
    | goes q =>
      simp only [hv] at hbad hafter
      obtain ⟨hq, hfoot, hgives⟩ := hafter
      cases sts with
      | nil =>
        rw [runAll_singleton_of_ok hx] at h
        cases h
        cases q with
        | theirs ro dirty => exact .inr ⟨r, ro, dirty, rfl, hgives, hq, hs', hfoot⟩
        | _ => simp [Phase.harmless] at hbad
      | cons st' sts =>
        rw [runAll_cons_cons_of_ok hx] at h
        have hw : s'.weight = s.weight := by rw [Duck.weight, hfoot, Duck.weight]
        have hrest := ih hbad (by simp) hs' hq h
        rwa [hw, hfoot] at hrest

/-! ### A read around its text -/

section

variable (g : Grammar)

/-- The text of a read, up to fetching the rows: what its last statement read. -/
def readText (sql : Text) : Act Duck EngineError (Option Reading) :=
  if RustStr.trim sql = [] then Act.fail (.parse emptyMessage)
  else
    Act.mapErr Errclass.classifyMessage <|
      match g.parse sql with
      | .error e => Act.fail e
      | .ok sts => runAll sts

/-- How a read delivers what its last statement read. It does not touch the connection any more. -/
structure Delivery where
  act : Option Reading → Act Duck EngineError QueryResult
  still : ∀ a s, (act a s).2 = s
  answers : ∀ a s res, (act a s).1 = .ok res → res.answer = a ∧ res.meta_.datasets = none

/-- Rows fetched into a result. -/
def Delivery.rows (fetch : Fetch) : Delivery where
  act
    | none => pure ⟨none, ⟨0, none, none⟩⟩
    | some r => do
      let n ← fetchRows fetch
      pure ⟨some r, ⟨n, none, none⟩⟩
  still a s := by cases a <;> cases fetch <;> rfl
  answers a s res h := by cases a <;> cases fetch <;> cases h <;> exact ⟨rfl, rfl⟩

theorem takeBatches_still (n : ℕ) (bs : List BatchStep) (s : Duck) : (takeBatches n bs s).2 = s := by
  induction bs generalizing n with
  | nil => rfl
  | cons b bs ih =>
    cases b with
    | cancelled | unwinds => rfl
    | taken m stop =>
      simp only [takeBatches]
      split
      · rfl
      · exact ih _

/-- Batches given to a sink. -/
def Delivery.batches (stream : Stream) : Delivery where
  act
    | none => pure ⟨none, ⟨0, none, none⟩⟩
    | some r =>
      if stream.schemaStops then pure ⟨some r, ⟨0, none, none⟩⟩
      else do
        let n ← takeBatches 0 stream.batches
        pure ⟨some r, ⟨n, none, none⟩⟩
  still a s := by
    cases a with
    | none => rfl
    | some r =>
      have hb := takeBatches_still 0 stream.batches s
      simp only
      split
      · rfl
      · rcases hx : takeBatches 0 stream.batches s with ⟨n | e | _, t⟩ <;> rw [hx] at hb <;>
          simp only [Act.bind_apply, hx, Act.pure_apply] <;> exact hb
  answers a s res h := by
    cases a with
    | none => cases h; exact ⟨rfl, rfl⟩
    | some r =>
      simp only at h
      split at h
      · cases h; exact ⟨rfl, rfl⟩
      · rcases hx : takeBatches 0 stream.batches s with ⟨n | e | _, t⟩ <;>
          simp only [Act.bind_apply, hx, Act.pure_apply] at h <;> cases h
        exact ⟨rfl, rfl⟩

/-- Preparing a text and running what is left of it. -/
theorem prepare_then_last (sql : Text) :
    (prepare g sql >>= fun
      | none => pure none
      | some st => Act.mapErr Errclass.classifyMessage (execute st) >>= fun r => pure (some r)) = readText g sql := by
  unfold prepare readText
  split
  · rfl
  · cases hp : g.parse sql with
    | error e => rfl
    | ok sts =>
      simp only
      rw [← prepareAll_then_last, Act.mapErr_bind]
      congr 1
      funext o
      cases o with
      | none => rfl
      | some st => exact (Act.mapErr_bind Errclass.classifyMessage (execute st) fun r => pure (some r)).symm

theorem runRead_eq {sql : Text} (h : classify sql ≠ .write) (fetch : Fetch) :
    runRead g sql fetch = (readText g sql >>= (Delivery.rows fetch).act) := by
  rw [runRead, if_neg h, ← prepare_then_last, materialize, Act.bind_assoc, Act.bind_assoc]
  congr 1
  funext o
  cases o with
  | none => rfl
  | some st =>
    simp only [Act.bind_assoc]
    rfl

theorem runReadArrow_eq {sql : Text} (h : classify sql ≠ .write) (stream : Stream) :
    runReadArrow g sql stream = (readText g sql >>= (Delivery.batches stream).act) := by
  rw [runReadArrow, if_neg h, ← prepare_then_last, Act.bind_assoc]
  congr 1
  funext o
  cases o with
  | none => rfl
  | some st =>
    simp only [Act.bind_assoc]
    rfl

/-- What a read runs inside its transaction. -/
def readBody (loc : PondLocation) (owned : Bool) (sql : Text) (d : Delivery) : Act Duck EngineError QueryResult := do
  let datasets ← planDatasets loc
  let datasets ← annotate owned datasets
  let res ← readText g sql >>= d.act
  pure { res with meta_ := applyDatasets res.meta_ datasets }

theorem readQuery_eq {sql : Text} (h : classify sql ≠ .write) (loc : PondLocation) (owned : Bool) (fetch : Fetch) :
    readQuery g loc owned sql fetch = runWithAbort (inReadTxn g (readBody g loc owned sql (.rows fetch))) := by
  rw [readQuery, if_neg h, readBody, runRead_eq g h]

theorem readArrow_eq {sql : Text} (h : classify sql ≠ .write) (loc : PondLocation) (owned : Bool) (stream : Stream) :
    readArrow g loc owned sql stream = runWithAbort (inReadTxn g (readBody g loc owned sql (.batches stream))) := by
  rw [readArrow, if_neg h, readBody, runReadArrow_eq g h]

/-! ### The promise -/

/-- Everything a result reports, by what it was read from. -/
def QueryResult.readings (res : QueryResult) : List Reading :=
  res.answer.toList ++ res.meta_.datasets.getD []

/-- What a read that starts in `s` should do: publish and attach nothing; and report, if it succeeds, what
it read from one snapshot in the transaction that it opened. -/
def OneSnapshot (s : Duck) (out : Ended EngineError QueryResult × Duck) : Prop :=
  out.2.footprint = s.footprint ∧
    ∀ res, out.1 = .ok res → ∃ v : Option ℕ, ∀ r ∈ res.readings, r.txn = some s.conn.opened ∧
      (r.latest = none ∨ r.latest = v)

/-- Every read of the text keeps the promise. -/
def ReadsOnly (sql : Text) : Prop :=
  (∀ loc owned fetch s, OneSnapshot s (readQuery g loc owned sql fetch s)) ∧
    ∀ loc owned stream s, OneSnapshot s (readArrow g loc owned sql stream s)

/-- The statements of the text are harmless in the read bracket. -/
def Harmless (sql : Text) : Prop :=
  RustStr.trim sql = [] ∨ ∀ sts, g.parse sql = .ok sts → Phase.ours.harmless sts

/-! ### A harmless text keeps it -/

variable {g}

/-- A text that is harmless, as `runAll_of_harmless` has it of its statements. -/
theorem readText_of_harmless {k : ℕ} {sql : Text} {s t : Duck} {o : Ended EngineError (Option Reading)}
    (hsafe : Harmless g sql) (hp : InPhase k s .ours) (h : readText g sql s = (o, t)) :
    t.footprint = s.footprint ∧ ∀ a, o = .ok a →
      ∃ q, Phase.harmless q [] ∧ InPhase k t q ∧ ∀ r, a = some r → q.Gives k t r := by
  unfold readText at h
  split at h
  · cases h
    exact ⟨rfl, by simp⟩
  · rename_i hne
    cases hparse : g.parse sql with
    | error e =>
      simp only [hparse, Act.mapErr_apply, Act.fail_apply] at h
      cases h
      exact ⟨rfl, by simp [Ended.mapErr]⟩
    | ok sts =>
      simp only [hparse, Act.mapErr_apply] at h
      rcases hx : runAll sts s with ⟨x, u⟩
      rw [hx] at h
      cases h
      obtain ⟨hfoot, hok⟩ := runAll_of_harmless (hsafe.resolve_left hne sts hparse) hp hx
      exact ⟨hfoot, fun a ha => hok a (Ended.mapErr_eq_ok.1 ha)⟩

/-- The extraction and the annotation read from our transaction, or report nothing. -/
theorem datasets_read {k : ℕ} (loc : PondLocation) (owned : Bool) {s : Duck} (hp : InPhase k s .ours) :
    ∃ ds ds' t, planDatasets loc s = (.ok ds, planned loc s) ∧ annotate owned ds (planned loc s) = (.ok ds', t) ∧
      InPhase k t .ours ∧ t.footprint = s.footprint ∧ ∀ r ∈ ds'.getD [], t.Reads k r := by
  -- One query: it leaves the transaction open, and what it answers was read from it.
  have look {s : Duck} (hp : InPhase k s .ours) :
      ∃ x, execute .select s = (x, (s.exec .select).2) ∧ InPhase k (s.exec .select).2 .ours ∧
        (s.exec .select).2.footprint = s.footprint ∧ x ≠ .unwound ∧
        ∀ r, x = .ok r → (s.exec .select).2.Reads k r := by
    rcases hx : s.exec .select with ⟨m | r, u⟩
    · have hq := ours_exec_select hp
      rw [hx] at hq
      exact ⟨.err m, execute_of_error hx, hq, Duck.footprint_of_exec_error hx, by simp, by simp⟩
    · obtain ⟨hq, hfoot, hgives⟩ := exec_after hp hx
      refine ⟨.ok r, execute_of_ok hx, hq, hfoot, by simp, ?_⟩
      rintro _ ⟨⟩
      exact hgives
  have hnotate (ds : Option (List Reading)) {s : Duck} (hp : InPhase k s .ours) (hds : ∀ r ∈ ds.getD [], s.Reads k r) :
      ∃ ds' t, annotate owned ds s = (.ok ds', t) ∧ InPhase k t .ours ∧ t.footprint = s.footprint ∧
        ∀ r ∈ ds'.getD [], t.Reads k r := by
    cases ds with
    | none => exact ⟨none, s, rfl, hp, rfl, by simp⟩
    | some ds =>
      by_cases hskip : owned = false ∨ ds = []
      · refine ⟨some ds, s, ?_, hp, rfl, hds⟩
        rw [annotate, annotateSchemas, if_pos hskip]
        rfl
      · obtain ⟨x, hx, hq, hfoot, hne, hr⟩ := look hp
        have hlater : ∀ r ∈ ds, (s.exec .select).2.Reads k r := by
          cases hq with
          | ours ht hid => exact fun r hr => (hds r hr).later (s.samePin_exec .select) hp.opened ht hid
        rw [annotate, annotateSchemas, if_neg hskip]
        cases x with
        | ok r =>
          refine ⟨some (ds ++ [r]), _, by rw [Act.bind_of_ok (Act.bind_of_ok (Act.attempt_of_ok hx) _)]; rfl, hq, hfoot, ?_⟩
          intro r' hr'
          rcases List.mem_append.1 hr' with h | h
          · exact hlater r' h
          · rw [List.mem_singleton.1 h]
            exact hr r rfl
        | err e =>
          exact ⟨some ds, _, by rw [Act.bind_of_ok (Act.bind_of_ok (Act.attempt_of_err hx) _)]; rfl, hq, hfoot, hlater⟩
        | unwound => exact absurd rfl hne
  unfold planDatasets planned
  split
  · obtain ⟨x, hx, hq, hfoot, hne, hr⟩ := look hp
    obtain ⟨ds, hds, hreads⟩ : ∃ ds, referencedTables s = (.ok ds, (s.exec .select).2) ∧
        ∀ r ∈ ds, (s.exec .select).2.Reads k r := by
      cases x with
      | ok r => exact ⟨[r], by rw [referencedTables, Act.bind_of_ok (Act.attempt_of_ok hx)]; rfl, by simpa using hr r rfl⟩
      | err e => exact ⟨[], by rw [referencedTables, Act.bind_of_ok (Act.attempt_of_err hx)]; rfl, by simp⟩
      | unwound => exact absurd rfl hne
    obtain ⟨ds', t, hann, hp', hfoot', hreads'⟩ := hnotate (some ds) hq hreads
    exact ⟨some ds, ds', t, by rw [Act.bind_of_ok hds]; rfl, hann, hp', hfoot'.trans hfoot, hreads'⟩
  · obtain ⟨ds', t, hann, hp', hfoot', hreads'⟩ := hnotate none hp (by simp)
    exact ⟨none, ds', t, rfl, hann, hp', hfoot', hreads'⟩

/-- Our transaction, behind a `BEGIN TRANSACTION READ ONLY`. -/
theorem ours_of_begin {s b : Duck} {r : Reading} (h : s.exec (.beginTxn true) = (.ok r, b)) :
    InPhase s.conn.opened b .ours ∧ b.footprint = s.footprint := by
  obtain ⟨-, rfl⟩ := Duck.exec_begin_ok h
  exact ⟨.ours rfl rfl rfl rfl (Nat.lt_succ_self _), s.footprint_advance⟩

/-- What the body of a read leaves, if its text is harmless. -/
theorem readBody_of_harmless {k : ℕ} {loc : PondLocation} {owned : Bool} {sql : Text} {d : Delivery} {s t : Duck}
    {o : Ended EngineError QueryResult} (hsafe : Harmless g sql) (hp : InPhase k s .ours)
    (h : readBody g loc owned sql d s = (o, t)) :
    t.footprint = s.footprint ∧ ∀ res, o = .ok res →
      ∃ q, Phase.harmless q [] ∧ InPhase k t q ∧ (q = .ours → ∀ r ∈ res.readings, t.Reads k r) := by
  obtain ⟨ds, ds', u, hds, hann, hu, hfoot, hreads⟩ := datasets_read loc owned hp
  rw [readBody, Act.bind_of_ok hds, Act.bind_of_ok hann] at h
  rcases hx : readText g sql u with ⟨a | e | _, w⟩
  · obtain ⟨hfoot', hok⟩ := readText_of_harmless hsafe hu hx
    obtain ⟨q, hq, hphase, hgives⟩ := hok a rfl
    have hpin : Duck.SamePin u w := by
      have hk : Act.Keeps Duck.SamePin (readText g sql) := by
        unfold readText
        split
        · exact Act.keeps_fail _
        · refine Act.Keeps.mapErr ?_ _
          split
          · exact Act.keeps_fail _
          · exact fun s => Duck.samePin_of_runs (runAll_runs (P := fun _ => True) (fun _ _ => trivial) s)
      have := hk u
      rwa [hx] at this
    obtain ⟨x, hd⟩ : ∃ x, d.act a w = (x, w) := ⟨_, Prod.ext rfl (d.still a w)⟩
    rcases x with res | e | _
    · obtain ⟨hanswer, hnone⟩ := d.answers a w res (congrArg Prod.fst hd)
      rw [Act.bind_of_ok (Act.bind_of_ok hx _ |>.trans hd)] at h
      cases h
      refine ⟨hfoot'.trans hfoot, ?_⟩
      rintro _ ⟨⟩
      refine ⟨q, hq, hphase, ?_⟩
      rintro rfl r hr
      rcases List.mem_append.1 hr with hr | hr
      · -- The answer: what the last statement of the text read.
        exact hgives r (by simpa [hanswer] using hr)
      · -- A dataset: read before the text, and our transaction is still open.
        have hmem : r ∈ ds'.getD [] := by
          cases ds' with
          | none => simp [applyDatasets, hnone] at hr
          | some ds' => exact hr
        cases hphase with
        | ours ht hid => exact (hreads r hmem).later hpin hu.opened ht hid
    · rw [Act.bind_of_err (Act.bind_of_ok hx _ |>.trans hd)] at h
      cases h
      exact ⟨hfoot'.trans hfoot, by simp⟩
    · rw [Act.bind_of_unwound (Act.bind_of_ok hx _ |>.trans hd)] at h
      cases h
      exact ⟨hfoot'.trans hfoot, by simp⟩
  · obtain ⟨hfoot', -⟩ := readText_of_harmless hsafe hu hx
    rw [Act.bind_of_err (Act.bind_of_err hx _)] at h
    cases h
    exact ⟨hfoot'.trans hfoot, by simp⟩
  · obtain ⟨hfoot', -⟩ := readText_of_harmless hsafe hu hx
    rw [Act.bind_of_unwound (Act.bind_of_unwound hx _)] at h
    cases h
    exact ⟨hfoot'.trans hfoot, by simp⟩

/-- A read of a harmless text, watched and in its bracket. -/
theorem oneSnapshot_of_harmless {sql : Text} (hsafe : Harmless g sql) (loc : PondLocation) (owned : Bool)
    (d : Delivery) (s : Duck) : OneSnapshot s (runWithAbort (inReadTxn g (readBody g loc owned sql d)) s) := by
  rw [runWithAbort_apply]
  rcases hx : inReadTxn g (readBody g loc owned sql d) (s.arm true) with ⟨o, t⟩
  have harm : (s.arm true).footprint = s.footprint := rfl
  have hdrop (u : Duck) : (u.exec .rollback).2.footprint = u.footprint := Duck.footprint_exec .rollback u
  have hout : t.footprint = s.footprint ∧ ∀ res, o = .ok res → ∃ v : Option ℕ, ∀ r ∈ res.readings,
      r.txn = some s.conn.opened ∧ (r.latest = none ∨ r.latest = v) := by
    cases inReadTxn_spec g _ _ hx with
    | beginFails hb => exact ⟨(Duck.footprint_of_exec_error hb).trans harm, by simp⟩
    | bodyEnds hb hu hok =>
      obtain ⟨hp, hfoot⟩ := ours_of_begin hb
      obtain ⟨hfoot', -⟩ := readBody_of_harmless hsafe hp hu
      refine ⟨by rw [hdrop, hfoot', hfoot, harm], ?_⟩
      rintro res rfl
      simp [Ended.isOk] at hok
    | commitFails hb hu hd =>
      obtain ⟨hp, hfoot⟩ := ours_of_begin hb
      obtain ⟨hfoot', -⟩ := readBody_of_harmless hsafe hp hu
      exact ⟨by rw [hdrop, Duck.footprint_of_exec_error hd, hfoot', hfoot, harm], by simp⟩
    | @commits _ _ b u _ res hb hu hd =>
      obtain ⟨hp, hfoot⟩ := ours_of_begin hb
      obtain ⟨hfoot', hok⟩ := readBody_of_harmless hsafe hp hu
      obtain ⟨q, hq, hphase, hreads⟩ := hok res rfl
      have hafter := exec_after hphase hd
      cases hphase with
      | auto => exact hafter.elim
      | theirs => simp [Phase.harmless] at hq
      | @ours x hx hid =>
        refine ⟨by rw [hafter.2.1, hfoot', hfoot, harm], ?_⟩
        rintro _ ⟨⟩
        refine ⟨x.pin.getD none, fun r hr => ?_⟩
        obtain ⟨y, hy, -, htxn, hlatest⟩ := hreads rfl r hr
        rw [hx] at hy
        cases hy
        refine ⟨htxn, hlatest.imp id fun hpin => ?_⟩
        rw [hpin, Option.getD_some]
  exact ⟨hout.1, fun res hres => hout.2 res (Ended.mapErr_eq_ok.1 hres)⟩

/-! ### Any other text breaks it -/

/-- A pond without lineage. -/
def plainPond : PondLocation := ⟨"pond".toList, false⟩

/-- A text that parses runs its statements. -/
theorem readText_of_parse {sql : Text} {sts : List Stmt} (hne : ¬RustStr.trim sql = []) (hparse : g.parse sql = .ok sts)
    {s t : Duck} {o : Ended Text (Option Reading)} (h : runAll sts s = (o, t)) :
    readText g sql s = (o.mapErr Errclass.classifyMessage, t) := by
  rw [readText, if_neg hne, hparse]
  exact congrArg (fun z => (z.1.mapErr Errclass.classifyMessage, z.2)) h

/-- On a pond without lineage the body of a read is its text: it leaves what the text left, and answers with what
the text read. -/
theorem readBody_plain {sql : Text} {s t u : Duck} {o : Ended EngineError (Option Reading)}
    {x : Ended EngineError QueryResult} (htext : readText g sql s = (o, t))
    (h : readBody g plainPond false sql (.rows (.done 0)) s = (x, u)) :
    u = t ∧ ∀ a, o = .ok a → ∃ res, x = .ok res ∧ ∀ r, a = some r → r ∈ res.readings := by
  rw [readBody, Act.bind_of_ok (show planDatasets plainPond s = (.ok none, s) from rfl),
    Act.bind_of_ok (show annotate false none s = (.ok none, s) from rfl)] at h
  cases o with
  | ok a =>
    have hrows : ∃ res, (readText g sql >>= (Delivery.rows (.done 0)).act) s = (.ok res, t) ∧
        ∀ r, a = some r → r ∈ res.readings := by
      rw [Act.bind_of_ok htext]
      cases a with
      | none => exact ⟨_, rfl, fun r hr => by cases hr⟩
      | some r => exact ⟨_, rfl, fun r' hr => by cases hr; simp [QueryResult.readings]⟩
    obtain ⟨res, hrows, hreadings⟩ := hrows
    rw [Act.bind_of_ok hrows] at h
    cases h
    refine ⟨rfl, fun a' ha => ?_⟩
    cases ha
    exact ⟨_, rfl, hreadings⟩
  | err e =>
    rw [Act.bind_of_err (Act.bind_of_err htext _)] at h
    cases h
    exact ⟨rfl, fun a ha => by cases ha⟩
  | unwound =>
    rw [Act.bind_of_unwound (Act.bind_of_unwound htext _)] at h
    cases h
    exact ⟨rfl, fun a ha => by cases ha⟩

/-- On a new connection a text that is not harmless is run to its end. -/
theorem not_oneSnapshot_of_harmful {sql : Text} (hbad : ¬Harmless g sql) :
    ¬OneSnapshot (.fresh [])
      (runWithAbort (inReadTxn g (readBody g plainPond false sql (.rows (.done 0)))) (.fresh [])) := by
  obtain ⟨hne, hbad⟩ := not_or.1 hbad
  push Not at hbad
  obtain ⟨sts, hparse, hsts⟩ := hbad
  have hsts' : Phase.ours.harmless sts = false := by simpa using hsts
  have hcons : sts ≠ [] := by
    rintro rfl
    simp [Phase.harmless] at hsts
  rw [runWithAbort_apply]
  rcases hx : inReadTxn g (readBody g plainPond false sql (.rows (.done 0))) ((Duck.fresh []).arm true) with ⟨o, t⟩
  rintro ⟨hfoot, hone⟩
  have hstart : (Duck.fresh []).weight = 0 := by decide
  have hweight : t.weight = 0 := by
    rw [← hstart, Duck.weight, Duck.weight, ← hfoot]
    rfl
  -- The body, behind the `BEGIN`, is the text.
  have hbody {b u : Duck} {r : Reading} {x : Ended EngineError QueryResult}
      (hb : ((Duck.fresh []).arm true).exec (.beginTxn true) = (.ok r, b))
      (hu : readBody g plainPond false sql (.rows (.done 0)) b = (x, u)) :
      0 < u.weight ∨ ∃ res r ro dirty, x = .ok res ∧ r ∈ res.readings ∧ r.txn ≠ some 0 ∧
        InPhase 0 u (.theirs ro dirty) ∧ u.Healthy := by
    have hb' : b = ((Duck.fresh []).arm true |>.exec (.beginTxn true)).2 := by rw [hb]
    have hhealthy : b.Healthy := by
      rw [hb']
      exact ⟨rfl, by rintro t ⟨⟩; rfl⟩
    obtain ⟨hp, -⟩ := ours_of_begin hb
    rcases hr : runAll sts b with ⟨y, w⟩
    obtain ⟨rfl, hres⟩ := readBody_plain (readText_of_parse hne hparse hr) hu
    rcases runAll_of_harmful hsts' hcons hhealthy hp hr with hw | ⟨r', ro, dirty, rfl, htxn, hphase, hw, -⟩
    · exact .inl (Nat.zero_lt_of_lt hw)
    · obtain ⟨res, rfl, hreadings⟩ := hres (some r') rfl
      exact .inr ⟨res, r', ro, dirty, rfl, hreadings r' rfl, htxn, hphase, hw⟩
  cases inReadTxn_spec g _ _ hx with
  | beginFails hb =>
    have hok : (((Duck.fresh []).arm true).exec (.beginTxn true)).1 = .ok ⟨some 0, none⟩ := rfl
    rw [hb] at hok
    cases hok
  | @bodyEnds _ _ u _ hb hu hok =>
    rcases hbody hb hu with hw | ⟨res, r, ro, dirty, rfl, -⟩
    · have hdrop : (u.exec .rollback).2.footprint = u.footprint := Duck.footprint_exec .rollback u
      rw [Duck.weight, hdrop] at hweight
      exact hw.ne' hweight
    · simp [Ended.isOk] at hok
  | @commitFails _ _ u d _ _ hb hu hd =>
    rcases hbody hb hu with hw | ⟨res, r, ro, dirty, -, -, -, hphase, hhealthy⟩
    · have hdrop : (d.exec .rollback).2.footprint = d.footprint := Duck.footprint_exec .rollback d
      rw [Duck.weight, hdrop, Duck.footprint_of_exec_error hd] at hweight
      exact hw.ne' hweight
    · have hgo : (Phase.theirs ro dirty).after .commit ≠ .stop := by cases dirty <;> simp [Phase.after, Stmt.core]
      obtain ⟨r', d', hd', -⟩ := exec_healthy hhealthy hphase hgo
      rw [hd] at hd'
      cases hd'
  | @commits _ _ _ u _ _ hb hu hd =>
    rcases hbody hb hu with hw | ⟨res, r, ro, dirty, ⟨⟩, hr, htxn, -⟩
    · have hle := u.exec_weight .commit
      rw [hd] at hle
      exact (hw.trans_le hle).ne' hweight
    · obtain ⟨v, hv⟩ := hone _ rfl
      exact htxn (hv r hr).1

/-- **The read surface.** In every state of the connection and the pond, under every schedule and however
the rows are taken, a read of the text publishes and attaches nothing and answers from the one transaction
it opened, exactly when the classifier refuses the text or its statements are harmless: none of them
attaches, they do not leave our transaction to write or to commit one of their own, and they do not end in
one. -/
theorem read_surface_iff (g : Grammar) (sql : Text) : ReadsOnly g sql ↔ classify sql = .write ∨ Harmless g sql := by
  constructor
  · rintro ⟨hrows, -⟩
    by_contra hno
    obtain ⟨hread, hbad⟩ := not_or.1 hno
    have h := hrows plainPond false (.done 0) (.fresh [])
    rw [readQuery_eq g hread] at h
    exact not_oneSnapshot_of_harmful hbad h
  · intro h
    by_cases hwrite : classify sql = .write
    · -- The guard refuses it before anything runs.
      refine ⟨fun loc owned fetch s => ?_, fun loc owned stream s => ?_⟩
      · rw [readQuery, if_pos hwrite]
        exact ⟨rfl, by simp⟩
      · rw [readArrow, if_pos hwrite]
        exact ⟨rfl, by simp⟩
    · have hsafe := h.resolve_left hwrite
      refine ⟨fun loc owned fetch s => ?_, fun loc owned stream s => ?_⟩
      · rw [readQuery_eq g hwrite]
        exact oneSnapshot_of_harmless hsafe loc owned _ s
      · rw [readArrow_eq g hwrite]
        exact oneSnapshot_of_harmless hsafe loc owned _ s

/-- A carriage return hides the `COMMIT` and the `INSERT` from the classifier; preparing the text runs the
first of them, and the read publishes the second. -/
theorem commit_escapes_the_read :
    let sql := "SELECT 1;\rCOMMIT;\rINSERT INTO t VALUES (1)".toList
    classify sql = .read ∧
      (readQuery keywordGrammar plainPond false sql (.done 1) (.fresh [])).2.own ≠ (Duck.fresh []).own := by
  decide +kernel

end

end Latiq.EngineDuckdb
