import Mathlib.Tactic.Common

/-!
# Forward-only migrations

A store has a version, and a list of migrations, the `i`-th of which takes it from version `i` to version `i + 1`. A
migration is a list of statements, and the version is recorded behind them, by a statement of its own. A run applies
what the version says is to be applied; it may stop between any two statements, and start again from what it left.

* `Store` — the statements of a store and its version.
* `run`, `crashed` — a run, and what is left of one that stops after some of its statements.
* `underway` — the migration that a run has begun, and not recorded, when it stops.
* `converges_iff` — where each migration either can be applied again over a part of itself or fails there, a run that
  starts again arrives where an undisturbed one does exactly when the migration underway is one of the former.
-/

namespace Migrate

/-- A store with versions. -/
structure Store (D S : Type) where
  /-- A statement, which may fail. -/
  exec : S → D → Option D
  version : D → ℕ
  /-- What makes room for the version, where there is none. -/
  prepare : D → D
  record : ℕ → D → D

/-- What a run executes. -/
inductive Step (S : Type) where
  | prepare
  | exec (s : S)
  | record (v : ℕ)
  deriving DecidableEq, Repr

variable {D S : Type} (st : Store D S)

/-- One statement of a run. -/
def Store.step (d : D) : Step S → Option D
  | .prepare => some (st.prepare d)
  | .exec s => st.exec s d
  | .record v => some (st.record v d)

/-- Statements in order, up to the first that fails. -/
def Store.execAll (st : Store D S) (d : D) : List (Step S) → Option D
  | [] => some d
  | s :: ss => (st.step d s).bind fun d' => st.execAll d' ss

/-- The statements of the migrations behind a version. -/
def stepsFrom : ℕ → List (List S) → List (Step S)
  | _, [] => []
  | v, m :: ms => m.map .exec ++ .record (v + 1) :: stepsFrom (v + 1) ms

/-- The statements of a run. -/
def Store.steps (migrations : List (List S)) (d : D) : List (Step S) :=
  let current := st.version (st.prepare d)
  .prepare :: stepsFrom current (migrations.drop current)

/-- A run of the migrations. -/
def Store.run (migrations : List (List S)) (d : D) : Option D := st.execAll d (st.steps migrations d)

/-- What is left of a run that stops after `n` statements. -/
def Store.crashed (migrations : List (List S)) (d : D) (n : ℕ) : Option D :=
  st.execAll d ((st.steps migrations d).take n)

/-- The migration that is begun and not recorded after `n` statements. -/
def underway : ℕ → List (List S) → ℕ → Option ℕ
  | _, [], _ => none
  | v, m :: ms, n =>
    if n = 0 then none else if n ≤ m.length then some (v + 1) else underway (v + 1) ms (n - (m.length + 1))

variable {st}

theorem execAll_append (d : D) (ss ts : List (Step S)) :
    st.execAll d (ss ++ ts) = (st.execAll d ss).bind fun d' => st.execAll d' ts := by
  induction ss generalizing d with
  | nil => rfl
  | cons s ss ih =>
    rw [List.cons_append, Store.execAll, Store.execAll, Option.bind_assoc]
    congr 1
    funext d'
    exact ih d'

theorem execAll_stepsFrom_cons (d : D) (v : ℕ) (m : List S) (ms : List (List S)) :
    st.execAll d (stepsFrom v (m :: ms)) =
      (st.execAll d (m.map .exec)).bind fun d' => st.execAll (st.record (v + 1) d') (stepsFrom (v + 1) ms) := by
  rw [stepsFrom, execAll_append]
  rfl

/-- What is assumed of a store and its migrations: `At v` is what holds of it at version `v`, and `redo` are the
migrations that can be applied again over a part of themselves. -/
structure Sound (st : Store D S) (migrations : List (List S)) (At : ℕ → D → Prop) (redo : ℕ → Prop) : Prop where
  exec_version : ∀ s d d', st.exec s d = some d' → st.version d' = st.version d
  prepare_again : ∀ s d d', st.exec s d = some d' → st.prepare d = d → st.prepare d' = d'
  version : ∀ v d, At v d → st.version d = v
  prepared : ∀ v d, At v d → st.prepare d = d
  applies : ∀ v d m, At v d → migrations[v]? = some m →
    ∃ d', st.execAll d (m.map .exec) = some d' ∧ At (v + 1) (st.record (v + 1) d')
  again : ∀ v d m n c, At v d → migrations[v]? = some m → redo (v + 1) → 0 < n → n ≤ m.length →
    st.execAll d ((m.take n).map .exec) = some c → st.execAll c (m.map .exec) = st.execAll d (m.map .exec)
  stuck : ∀ v d m n c, At v d → migrations[v]? = some m → ¬redo (v + 1) → 0 < n → n ≤ m.length →
    st.execAll d ((m.take n).map .exec) = some c → st.execAll c (m.map .exec) = none

section

variable {migrations : List (List S)} {At : ℕ → D → Prop} {redo : ℕ → Prop}

/-- Statements other than records keep the version. -/
theorem Sound.exec_kept (h : Sound st migrations At redo) {m : List S} {d c : D} (hd : st.prepare d = d)
    (hc : st.execAll d (m.map .exec) = some c) : st.version c = st.version d ∧ st.prepare c = c := by
  induction m generalizing d with
  | nil =>
    cases hc
    exact ⟨rfl, hd⟩
  | cons s m ih =>
    obtain ⟨d', hs, hrest⟩ := Option.bind_eq_some_iff.1 hc
    obtain ⟨hversion, hprepared⟩ := ih (h.prepare_again s d d' hs hd) hrest
    exact ⟨hversion.trans (h.exec_version s d d' hs), hprepared⟩

/-- A run of a store that is prepared. -/
theorem run_of_prepared {d : D} {v : ℕ} (hd : st.prepare d = d) (hv : st.version d = v) :
    st.run migrations d = st.execAll d (stepsFrom v (migrations.drop v)) := by
  subst hv
  rw [Store.run, Store.steps, hd]
  show (some (st.prepare d)).bind _ = _
  rw [hd]
  rfl

theorem drop_eq_cons {v : ℕ} {m : List S} {ms : List (List S)} (h : migrations.drop v = m :: ms) :
    migrations[v]? = some m ∧ migrations.drop (v + 1) = ms := by
  constructor
  · rw [← List.head?_drop, h]
    rfl
  · rw [← List.tail_drop, h]
    rfl

/-- An undisturbed run arrives. -/
theorem Sound.arrives (h : Sound st migrations At redo) {ms : List (List S)} {v : ℕ} {d : D} (hd : At v d)
    (hms : migrations.drop v = ms) : ∃ final, st.execAll d (stepsFrom v ms) = some final := by
  induction ms generalizing v d with
  | nil => exact ⟨d, rfl⟩
  | cons m ms ih =>
    obtain ⟨hm, hrest⟩ := drop_eq_cons hms
    obtain ⟨d', hexec, hat⟩ := h.applies v d m hd hm
    obtain ⟨final, hfinal⟩ := ih hat hrest
    refine ⟨final, ?_⟩
    rw [execAll_stepsFrom_cons, hexec]
    exact hfinal

/-- A run that stops at some point of the migrations, and starts again. -/
theorem Sound.converges_from (h : Sound st migrations At redo) {ms : List (List S)} {v n : ℕ} {d final : D} (hd : At v d)
    (hms : migrations.drop v = ms) (hfinal : st.execAll d (stepsFrom v ms) = some final) :
    ∃ c, st.execAll d ((stepsFrom v ms).take n) = some c ∧
      (st.run migrations c = some final ↔ ∀ w, underway v ms n = some w → redo w) := by
  have hrun : st.run migrations d = some final := by
    rw [run_of_prepared (h.prepared v d hd) (h.version v d hd), hms, hfinal]
  induction ms generalizing v d n with
  | nil =>
    refine ⟨d, by rw [stepsFrom, List.take_nil]; rfl, iff_of_true hrun ?_⟩
    intro w hw
    cases hw
  | cons m ms ih =>
    obtain ⟨hm, hrest⟩ := drop_eq_cons hms
    obtain ⟨d', hexec, hat⟩ := h.applies v d m hd hm
    rw [execAll_stepsFrom_cons, hexec, Option.bind_some] at hfinal
    by_cases hn : n ≤ m.length
    · -- it stops before the version is recorded
      obtain ⟨c, hc⟩ : ∃ c, st.execAll d ((m.take n).map .exec) = some c := by
        have hsplit : st.execAll d (((m.take n).map .exec) ++ (m.drop n).map .exec) = some d' := by
          rw [← List.map_append, List.take_append_drop, hexec]
        rw [execAll_append] at hsplit
        obtain ⟨c, hc, -⟩ := Option.bind_eq_some_iff.1 hsplit
        exact ⟨c, hc⟩
      have htake : (stepsFrom v (m :: ms)).take n = (m.take n).map .exec := by
        rw [stepsFrom, List.take_append_of_le_length (by simpa using hn), List.map_take]
      refine ⟨c, htake ▸ hc, ?_⟩
      obtain ⟨hversion, hprepared⟩ := h.exec_kept (h.prepared v d hd) hc
      rw [run_of_prepared hprepared (hversion.trans (h.version v d hd)), hms, execAll_stepsFrom_cons]
      by_cases hn0 : n = 0
      · subst hn0
        obtain rfl : d = c := by simpa [Store.execAll] using hc
        refine iff_of_true ?_ fun w hw => ?_
        · rw [hexec]
          exact hfinal
        · rw [underway, if_pos rfl] at hw
          cases hw
      · have hunder : underway v (m :: ms) n = some (v + 1) := by
          rw [underway, if_neg hn0, if_pos hn]
        rw [hunder]
        by_cases hredo : redo (v + 1)
        · refine iff_of_true ?_ fun w hw => Option.some.inj hw ▸ hredo
          rw [h.again v d m n c hd hm hredo (Nat.pos_of_ne_zero hn0) hn hc, hexec]
          exact hfinal
        · refine iff_of_false ?_ fun hall => hredo (hall _ rfl)
          rw [h.stuck v d m n c hd hm hredo (Nat.pos_of_ne_zero hn0) hn hc]
          exact nofun
    · -- it stops behind the record
      have htake : (stepsFrom v (m :: ms)).take n =
          m.map .exec ++ .record (v + 1) :: (stepsFrom (v + 1) ms).take (n - (m.length + 1)) := by
        rw [stepsFrom, List.take_append, List.length_map, List.take_of_length_le (by rw [List.length_map]; omega)]
        obtain ⟨k, hk⟩ : ∃ k, n - m.length = k + 1 := ⟨n - m.length - 1, by omega⟩
        rw [hk, List.take_succ_cons, show n - (m.length + 1) = k by omega]
      have hrecorded : st.run migrations (st.record (v + 1) d') = some final := by
        rw [run_of_prepared (h.prepared _ _ hat) (h.version _ _ hat), hrest, hfinal]
      obtain ⟨c, hc, hiff⟩ := ih (n := n - (m.length + 1)) hat hrest hfinal hrecorded
      refine ⟨c, ?_, ?_⟩
      · rw [htake, execAll_append, hexec]
        exact hc
      · rw [hiff, underway, if_neg (by omega), if_neg hn]

/-- **Starting again** arrives where an undisturbed run does, exactly when the migration that was underway can be applied
again. -/
theorem Sound.converges_iff (h : Sound st migrations At redo) {v : ℕ} {d : D} (hd : At v (st.prepare d)) :
    ∃ final, st.run migrations d = some final ∧ ∀ n, ∃ c, st.crashed migrations d n = some c ∧
      (st.run migrations c = some final ↔ ∀ w, underway v (migrations.drop v) (n - 1) = some w → redo w) := by
  have hversion := h.version v _ hd
  obtain ⟨final, hfinal⟩ := h.arrives hd rfl
  have hrun : st.run migrations d = some final := by
    rw [Store.run, Store.steps, hversion]
    exact hfinal
  refine ⟨final, hrun, fun n => ?_⟩
  rw [Store.crashed, Store.steps, hversion]
  cases n with
  | zero =>
    refine ⟨d, rfl, iff_of_true hrun fun w hw => ?_⟩
    cases hms : migrations.drop v with
    | nil =>
      rw [hms] at hw
      cases hw
    | cons m ms =>
      rw [hms, underway, if_pos rfl] at hw
      cases hw
  | succ n => exact h.converges_from hd rfl hfinal

end

end Migrate
