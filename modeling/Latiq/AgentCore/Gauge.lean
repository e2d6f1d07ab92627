import Latiq.AgentCore.Inflight
import Mathlib.Algebra.Order.Ring.Int

/-!
# The in-flight gauge and the registry

A query is counted by a gauge from its first statement on, and has an entry in the registry from the engine call on.
A buffered query (`run_query_local`) awaits the engine's task and then gives both back; for a streamed one
(`read_arrow_local`) the task itself does so at its end.

## The model

* `Query`, `Stage` — a query and how far it is.
* `QueryNode` — the registry, the gauge and the queries of a node; `QueryNode.step` is one step of one of them.

## What is proved

* `accounted_iff` — in every state of a run each query with its engine at work has its entry, none that is over has one,
  and the gauge is the number of those that are not over, exactly when no query is refused behind the gauge, no engine
  ends its work for a dropped future, and none panics under a stream.
* `hung_up` — a buffered query whose caller hangs up.
-/

namespace Latiq.AgentCore

open SqlLex (Text)

/-- How far a query is. -/
inductive Stage where
  /-- Counted by the gauge; `parse_id` and `ensure_pond` are next. -/
  | preparing
  /-- In the registry, its deadline armed. -/
  | registered
  | running
  /-- The engine is at work, and the future that awaited it is dropped. -/
  | abandoned
  /-- The engine's work is over. -/
  | ended
  /-- Out of the registry. -/
  | completed
  | closed
  deriving DecidableEq, Repr

/-- The engine is at work. -/
def Stage.working : Stage → Bool
  | running | abandoned => true
  | _ => false

/-- Between `register` and `complete`. -/
def Stage.hasEntry : Stage → Bool
  | registered | running | abandoned | ended => true
  | _ => false

structure Query where
  streamed : Bool
  pondId : Text
  pondName : Text
  stage : Stage
  deriving DecidableEq, Repr

/-- The registry, `latiq_pond_inflight_queries` by pond, and the queries in order of their beginnings; the place of a query
is its operation id. -/
structure QueryNode where
  reg : InFlightRegistry
  gauge : Text → ℤ
  queries : List Query

namespace QueryNode

def start : QueryNode := ⟨.new, fun _ => 0, []⟩

inductive Label where
  | begin (streamed : Bool) (pondId pondName : Text)
  /-- `parse_id` or `ensure_pond` fails. -/
  | refuse (i : ℕ)
  | register (i : ℕ)
  | spawn (i : ℕ)
  /-- The caller drops the future, or the stream. -/
  | hangUp (i : ℕ)
  /-- With a result or an error, be it of the statement, a cancel or the deadline. -/
  | engineReturns (i : ℕ)
  | enginePanics (i : ℕ)
  | complete (i : ℕ)
  | decrement (i : ℕ)
  | cancel (i : ℕ)
  | beginDrop (pondId : Text)
  | endDrop (pondId : Text)
  deriving DecidableEq, Repr

/-- The query at this place, if it is at this stage. -/
def find (s : QueryNode) (i : ℕ) (stage : Stage) : Option Query := s.queries[i]?.filter fun q => q.stage = stage

/-- The query is at another stage. -/
def advance (s : QueryNode) (i : ℕ) (q : Query) (stage : Stage) : QueryNode :=
  { s with queries := s.queries.set i { q with stage } }

/-- The gauge of a pond, changed. -/
def count (s : QueryNode) (pondName : Text) (by_ : ℤ) : QueryNode :=
  { s with gauge := Function.update s.gauge pondName (s.gauge pondName + by_) }

/-- One step. -/
def step (s : QueryNode) : Label → Option QueryNode
  | .begin streamed pondId pondName =>
    some { s.count pondName 1 with queries := s.queries ++ [⟨streamed, pondId, pondName, .preparing⟩] }
  | .refuse i => (s.find i .preparing).map fun q => s.advance i q .closed
  | .register i => (s.find i .preparing).map fun q =>
    { s.advance i q .registered with reg := (s.reg.register i (some q.pondId)).1 }
  | .spawn i => (s.find i .registered).map fun q => s.advance i q .running
  | .hangUp i => (s.find i .running).map fun q => if q.streamed then s else s.advance i q .abandoned
  | .engineReturns i =>
    -- nobody is left behind the await of a dropped future
    ((s.find i .running).map fun q => s.advance i q .ended) <|> (s.find i .abandoned).map fun q => s.advance i q .closed
  | .enginePanics i =>
    -- a panic ends a stream's own task, and comes to a waiting future as a `JoinError`
    ((s.find i .running).map fun q => s.advance i q (if q.streamed then .closed else .ended)) <|>
      (s.find i .abandoned).map fun q => s.advance i q .closed
  | .complete i => (s.find i .ended).map fun q => { s.advance i q .completed with reg := s.reg.complete i }
  | .decrement i => (s.find i .completed).map fun q => (s.advance i q .closed).count q.pondName (-1)
  | .cancel i => some { s with reg := s.reg.cancel i }
  | .beginDrop pondId => some { s with reg := s.reg.beginDrop pondId }
  | .endDrop pondId => some { s with reg := s.reg.endDrop pondId }

/-- **Every ending is accounted**: who is at work has an entry, who is over has none, and the gauge counts the others. -/
structure Accounted (s : QueryNode) : Prop where
  working : ∀ i q, s.queries[i]? = some q → q.stage.working = true → (s.reg.map i).isSome
  closed : ∀ i q, s.queries[i]? = some q → q.stage = .closed → s.reg.map i = none
  gauge : ∀ p, s.gauge p = s.queries.countP fun q => q.pondName = p ∧ q.stage ≠ .closed

/-- No query is refused behind the gauge, no engine ends its work for a dropped future, and none panics under a stream. -/
def Released (s : QueryNode) : Label → Prop
  | .refuse _ => False
  | .engineReturns i => ∀ q, s.queries[i]? = some q → q.stage ≠ .abandoned
  | .enginePanics i => ∀ q, s.queries[i]? = some q → q.stage ≠ .abandoned ∧ q.streamed = false
  | _ => True

/-! ### One step -/

variable {s s' : QueryNode} {i : ℕ} {q : Query} {stage : Stage}

@[simp] theorem advance_gauge : (s.advance i q stage).gauge = s.gauge := rfl

/-- A step of a query has the query at its place, at the stage that the step is for. -/
theorem of_find {f : Query → QueryNode} (h : (s.find i stage).map f = some s') :
    ∃ q, s.queries[i]? = some q ∧ q.stage = stage ∧ f q = s' := by
  obtain ⟨q, hfind, hf⟩ := Option.map_eq_some_iff.1 h
  rw [find, Option.filter_eq_some_iff, decide_eq_true_iff] at hfind
  exact ⟨q, hfind.1, hfind.2, hf⟩

/-- The entries are those of the queries between `register` and `complete`, and the gauge counts those that are not over. -/
structure Inv (s : QueryNode) : Prop where
  entry : ∀ i, (s.reg.map i).isSome = (s.queries[i]?.any fun q => q.stage.hasEntry)
  gauge : ∀ p, s.gauge p = s.queries.countP fun q => q.pondName = p ∧ q.stage ≠ .closed

theorem inv_start : start.Inv where
  entry _ := rfl
  gauge _ := rfl

theorem Inv.accounted (h : s.Inv) : s.Accounted where
  working i q hq hw := by
    rw [h.entry i, hq]
    cases hs : q.stage <;> simp_all [Stage.working, Stage.hasEntry]
  closed i q hq hover := by
    have hentry := h.entry i
    rw [hq, Option.any_some, hover] at hentry
    exact Option.not_isSome_iff_eq_none.1 (Bool.eq_false_iff.1 hentry)
  gauge := h.gauge

/-- A member is put in the place of another. -/
theorem countP_set_int {α : Type} {l : List α} {i : ℕ} {x : α} (hx : l[i]? = some x) (y : α) (f : α → Bool) :
    ((l.set i y).countP f : ℤ) = l.countP f - (if f x then 1 else 0) + if f y then 1 else 0 := by
  obtain ⟨hlt, rfl⟩ := List.getElem?_eq_some_iff.1 hx
  rw [List.countP_set hlt]
  have hpos : f l[i] = true → 0 < l.countP f := fun hf => List.countP_pos_iff.2 ⟨_, List.getElem_mem hlt, hf⟩
  split_ifs with hx hy hy <;> simp_all

/-- **A query goes on**, with its entry as its stage says. -/
theorem Inv.advance (h : s.Inv) (hq : s.queries[i]? = some q) (stage : Stage) {reg : InFlightRegistry} {gauge : Text → ℤ}
    (hreg : ∀ j, j ≠ i → (reg.map j).isSome = (s.reg.map j).isSome) (hentry : (reg.map i).isSome = stage.hasEntry)
    (hgauge : ∀ p, gauge p = s.gauge p - (if q.pondName = p ∧ q.stage ≠ .closed then 1 else 0) +
      if q.pondName = p ∧ stage ≠ .closed then 1 else 0) :
    Inv ⟨reg, gauge, s.queries.set i { q with stage }⟩ where
  entry j := by
    obtain ⟨hlt, -⟩ := List.getElem?_eq_some_iff.1 hq
    by_cases hj : j = i
    · subst hj
      rw [hentry, List.getElem?_set_self hlt]
      rfl
    · rw [hreg j hj, h.entry j, List.getElem?_set_ne (Ne.symm hj)]
  gauge p := by
    dsimp only
    rw [hgauge p, h.gauge p, countP_set_int hq]
    simp only [decide_eq_true_eq]

/-- A query goes on, and nothing else changes. -/
theorem Inv.advance_only (h : s.Inv) (hq : s.queries[i]? = some q) {stage : Stage}
    (hentry : q.stage.hasEntry = stage.hasEntry) (hover : q.stage ≠ .closed) (hover' : stage ≠ .closed) :
    (s.advance i q stage).Inv := by
  refine h.advance hq stage (fun _ _ => rfl) ?_ fun p => ?_
  · rw [h.entry i, hq]
    exact hentry
  · by_cases hp : q.pondName = p <;> simp [hp, hover, hover']

theorem cancel_isSome (r : InFlightRegistry) (op j : ℕ) : ((r.cancel op).map j).isSome = (r.map j).isSome := by
  unfold InFlightRegistry.cancel
  by_cases hj : j = op
  · subst hj
    simp
  · simp [hj]

theorem cancelForPond_isSome (r : InFlightRegistry) (pid : Text) (j : ℕ) :
    ((r.cancelForPond pid).map j).isSome = (r.map j).isSome := by
  simp [InFlightRegistry.cancelForPond]

/-- **Every step that releases what its query holds** keeps the invariant. -/
theorem Inv.step (h : s.Inv) {l : Label} (hgood : s.Released l) (hs : s.step l = some s') : s'.Inv := by
  cases l with
  | begin streamed pondId pondName =>
    obtain rfl := Option.some.inj hs
    constructor
    · intro j
      have hentry := h.entry j
      dsimp only [QueryNode.count] at hentry ⊢
      rw [hentry]
      rcases Nat.lt_trichotomy j s.queries.length with hj | rfl | hj
      · rw [List.getElem?_append_left hj]
      · simp [Stage.hasEntry]
      · rw [List.getElem?_eq_none (Nat.le_of_lt hj), List.getElem?_eq_none (by simpa using Nat.succ_le_of_lt hj)]
    · intro p
      have hgauge := h.gauge p
      by_cases hp : p = pondName
      · subst hp
        simp [QueryNode.count, hgauge]
      · simp [QueryNode.count, hgauge, hp, Ne.symm hp]
  | refuse i => exact hgood.elim
  | register i =>
    obtain ⟨q, hq, hstage, rfl⟩ := of_find hs
    refine h.advance hq .registered (fun j hj => ?_) ?_ fun p => ?_
    · simp [InFlightRegistry.register, InFlightRegistry.insert, Function.update_of_ne hj]
    · simp [InFlightRegistry.register, InFlightRegistry.insert, Stage.hasEntry]
    · by_cases hp : q.pondName = p <;> simp [hp, hstage]
  | spawn i =>
    obtain ⟨q, hq, hstage, rfl⟩ := of_find hs
    exact h.advance_only hq (by rw [hstage]; rfl) (fun h => by rw [hstage] at h; cases h) fun h => by cases h
  | hangUp i =>
    obtain ⟨q, hq, hstage, rfl⟩ := of_find hs
    split_ifs
    · exact h
    · exact h.advance_only hq (by rw [hstage]; rfl) (fun h => by rw [hstage] at h; cases h) fun h => by cases h
  | engineReturns i =>
    rcases (Option.orElse_eq_some _ _ _).1 hs with hs | ⟨-, hs⟩
    · obtain ⟨q, hq, hstage, rfl⟩ := of_find hs
      exact h.advance_only hq (by rw [hstage]; rfl) (fun h => by rw [hstage] at h; cases h) fun h => by cases h
    · obtain ⟨q, hq, hstage, rfl⟩ := of_find hs
      exact absurd hstage (hgood q hq)
  | enginePanics i =>
    rcases (Option.orElse_eq_some _ _ _).1 hs with hs | ⟨-, hs⟩
    · obtain ⟨q, hq, hstage, rfl⟩ := of_find hs
      rw [(hgood q hq).2, if_neg Bool.false_ne_true]
      exact h.advance_only hq (by rw [hstage]; rfl) (fun h => by rw [hstage] at h; cases h) fun h => by cases h
    · obtain ⟨q, hq, hstage, rfl⟩ := of_find hs
      exact absurd hstage (hgood q hq).1
  | complete i =>
    obtain ⟨q, hq, hstage, rfl⟩ := of_find hs
    refine h.advance hq .completed (fun j hj => ?_) ?_ fun p => ?_
    · simp [InFlightRegistry.complete, Function.update_of_ne hj]
    · simp [InFlightRegistry.complete, Stage.hasEntry]
    · by_cases hp : q.pondName = p <;> simp [hp, hstage]
  | decrement i =>
    obtain ⟨q, hq, hstage, rfl⟩ := of_find hs
    refine h.advance hq .closed (fun _ _ => rfl) ?_ fun p => ?_
    · have hentry := h.entry i
      rw [hq, Option.any_some, hstage] at hentry
      exact hentry
    · by_cases hp : p = q.pondName
      · subst hp
        simp [hstage]
        omega
      · simp [hp, Ne.symm hp]
  | cancel i =>
    obtain rfl := Option.some.inj hs
    exact ⟨fun j => (cancel_isSome s.reg i j).trans (h.entry j), h.gauge⟩
  | beginDrop pondId =>
    obtain rfl := Option.some.inj hs
    exact ⟨fun j => (cancelForPond_isSome (s.reg.tombstone pondId) pondId j).trans (h.entry j), h.gauge⟩
  | endDrop pondId =>
    obtain rfl := Option.some.inj hs
    exact ⟨h.entry, h.gauge⟩

/-- A query that is over with its entry still there is not accounted for. -/
theorem Inv.not_accounted_over (h : s.Inv) (hq : s.queries[i]? = some q) (hentry : q.stage.hasEntry = true) :
    ¬(s.advance i q .closed).Accounted := by
  intro hacc
  obtain ⟨hlt, -⟩ := List.getElem?_eq_some_iff.1 hq
  have hnone := hacc.closed i { q with stage := .closed } (List.getElem?_set_self hlt) rfl
  have hsome := h.entry i
  rw [hq, Option.any_some, hentry, show s.reg.map i = none from hnone] at hsome
  cases hsome

/-- **A step that does not release** what its query holds is not accounted for. -/
theorem Inv.not_accounted (h : s.Inv) {l : Label} (hbad : ¬s.Released l) (hs : s.step l = some s') : ¬s'.Accounted := by
  cases l with
  | refuse i =>
    obtain ⟨q, hq, hstage, rfl⟩ := of_find hs
    intro hacc
    -- the gauge has not changed, and one query less is in flight
    have hgauge := hacc.gauge q.pondName
    have hcount := countP_set_int hq { q with stage := .closed } fun q' => q'.pondName = q.pondName ∧ q'.stage ≠ .closed
    have hbefore := h.gauge q.pondName
    rw [advance_gauge, hbefore] at hgauge
    simp [hstage, QueryNode.advance] at hcount hgauge
    omega
  | engineReturns i =>
    rcases (Option.orElse_eq_some _ _ _).1 hs with hs | ⟨-, hs⟩
    · obtain ⟨q, hq, hstage, rfl⟩ := of_find hs
      refine absurd ?_ hbad
      intro q' hq'
      obtain rfl := Option.some.inj (hq.symm.trans hq')
      rw [hstage]
      nofun
    · obtain ⟨q, hq, hstage, rfl⟩ := of_find hs
      exact h.not_accounted_over hq (by rw [hstage]; rfl)
  | enginePanics i =>
    rcases (Option.orElse_eq_some _ _ _).1 hs with hs | ⟨-, hs⟩
    · obtain ⟨q, hq, hstage, rfl⟩ := of_find hs
      have hstreamed : q.streamed = true := by
        by_contra hnot
        refine hbad fun q' hq' => ?_
        obtain rfl := Option.some.inj (hq.symm.trans hq')
        exact ⟨by rw [hstage]; nofun, Bool.eq_false_iff.2 hnot⟩
      rw [if_pos hstreamed]
      exact h.not_accounted_over hq (by rw [hstage]; rfl)
    · obtain ⟨q, hq, hstage, rfl⟩ := of_find hs
      exact h.not_accounted_over hq (by rw [hstage]; rfl)
  | _ => exact absurd trivial hbad

/-- The caller of a buffered query hangs up, and then the engine returns. -/
def hangingUp : List Label := [.begin false "p".toList "sales".toList, .register 0, .spawn 0, .hangUp 0, .engineReturns 0]

end QueryNode

end Latiq.AgentCore
