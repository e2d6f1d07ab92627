import Latiq.Library.Runs
import Mathlib.Data.List.Nodup
import Mathlib.Data.List.Perm.Basic

/-!
# The pool of read connections

`ReadPool` is bounded and grows lazily: a reader takes an idle connection, or a free
slot and clones one outside the pool's lock, or waits on the condition variable
`returned` until `ReadGuard::drop` signals it.

## The model

* `PoolState`, `ReadPool` — the state under the lock; `ReadPool.pass` is one pass of the loop
  in `checkout_read`, `ReadPool.putBack` the section of `ReadGuard::drop`, `ReadPool.giveUp` that of the
  error path of `checkout_read`.
* `Readers` — the pool with the readers that clone, hold, return and wait; `Readers.step` is one
  critical section, one signal or one ending of one of them.

## What is proved

* `readers_attended_iff` — the count is right, the bound is kept, no connection is held twice,
  while a reader waits one is signalled or something is outstanding, and every checkout
  or clone that ends while a reader waits leaves one signalled: in exactly the runs in which no
  clone panics, and none fails while readers wait and none of them is signalled.
* `clones_fail` — a reader waits for ever behind clones that failed.
-/

namespace Latiq.EngineDuckdb

/-! ### The pool -/

/-- `PoolState`. Connections are numbers, and the head of `idle` is what `pop` takes. -/
structure PoolState where
  idle : List ℕ
  created : ℕ

/-- `ReadPool`. -/
structure ReadPool where
  state : PoolState
  max : ℕ

/-- How many read connections `Pond::open` allows, by the tier's cores or the host's. -/
def readPoolMax (limits : Option ℕ) (host : ℕ) : ℕ := min (max (limits.getD host * 2) 4) 32

theorem readPoolMax_pos (limits : Option ℕ) (host : ℕ) : 0 < readPoolMax limits host := by
  unfold readPoolMax
  omega

/-- What one pass of the loop in `checkout_read` comes to. -/
inductive Pass where
  | got (inst : ℕ)
  /-- A slot, to clone a connection into. -/
  | slot
  | wait
  deriving DecidableEq, Repr

namespace ReadPool

def opened (max : ℕ) : ReadPool := ⟨⟨[], 0⟩, max⟩

/-- One pass of the loop in `checkout_read`. -/
def pass (p : ReadPool) : ReadPool × Pass :=
  match p.state.idle with
  | inst :: idle => ({ p with state := { p.state with idle } }, .got inst)
  | [] =>
    if p.state.created < p.max then ({ p with state := { p.state with created := p.state.created + 1 } }, .slot)
    else (p, .wait)

/-- The section of `ReadGuard::drop`. -/
def putBack (p : ReadPool) (inst : ℕ) (reusable : Bool) : ReadPool :=
  if reusable then { p with state := { p.state with idle := inst :: p.state.idle } }
  else { p with state := { p.state with created := p.state.created - 1 } }

/-- The section of `checkout_read` behind a clone that failed. -/
def giveUp (p : ReadPool) : ReadPool := { p with state := { p.state with created := p.state.created - 1 } }

@[simp] theorem giveUp_idle (p : ReadPool) : p.giveUp.state.idle = p.state.idle := rfl

@[simp] theorem giveUp_created (p : ReadPool) : p.giveUp.state.created = p.state.created - 1 := rfl

@[simp] theorem giveUp_max (p : ReadPool) : p.giveUp.max = p.max := rfl

@[simp] theorem putBack_max (p : ReadPool) (inst : ℕ) (reusable : Bool) : (p.putBack inst reusable).max = p.max := by
  unfold putBack
  split <;> rfl

/-- **A pass** takes an idle connection, or else a free slot, or else waits with the pool full. -/
theorem pass_cases (p : ReadPool) :
    (∃ inst idle, p.state.idle = inst :: idle ∧ p.pass = (⟨⟨idle, p.state.created⟩, p.max⟩, .got inst)) ∨
    (p.state.idle = [] ∧ p.state.created < p.max ∧ p.pass = (⟨⟨[], p.state.created + 1⟩, p.max⟩, .slot)) ∨
    (p.state.idle = [] ∧ p.max ≤ p.state.created ∧ p.pass = (p, .wait)) := by
  unfold pass
  cases hi : p.state.idle with
  | cons inst idle => exact .inl ⟨inst, idle, rfl, rfl⟩
  | nil =>
    by_cases hc : p.state.created < p.max
    · exact .inr (.inl ⟨rfl, hc, by simp [hc, hi]⟩)
    · exact .inr (.inr ⟨rfl, by omega, by simp [hc]⟩)

end ReadPool

/-! ### The readers -/

/-- The pool and its readers. -/
structure Readers where
  pool : ReadPool
  /-- The next connection. -/
  fresh : ℕ
  /-- Readers with a slot, cloning into it. -/
  cloning : List ℕ
  /-- Readers with the connection their `ReadGuard` holds. -/
  held : List (ℕ × ℕ)
  /-- Readers between the section of `ReadGuard::drop` and its `notify_one`. -/
  leaving : List ℕ
  waiting : List ℕ
  /-- Readers that are signalled and have not yet taken the lock again. -/
  woken : List ℕ

namespace Readers

/-- What a reader does next. -/
inductive Label where
  /-- It calls `checkout_read`. -/
  | enter (r : ℕ)
  /-- It goes on behind a signal. -/
  | resume (r : ℕ)
  /-- It goes on without one. -/
  | spurious (r : ℕ)
  | cloned (r : ℕ)
  | cloneFails (r : ℕ)
  | clonePanics (r : ℕ)
  /-- Its `ReadGuard` is dropped, on a return or in an unwind. -/
  | giveBack (r inst : ℕ) (reusable : Bool)
  /-- It signals one of those that wait, if any does. -/
  | notify (r : ℕ) (waiter : Option ℕ)
  deriving DecidableEq, Repr

def opened (max : ℕ) : Readers := ⟨.opened max, 0, [], [], [], [], []⟩

/-- The reader is in a checkout. -/
def Busy (s : Readers) (r : ℕ) : Prop :=
  r ∈ s.cloning ∨ r ∈ s.held.map Prod.fst ∨ r ∈ s.leaving ∨ r ∈ s.waiting ∨ r ∈ s.woken

instance (s : Readers) (r : ℕ) : Decidable (s.Busy r) := by
  unfold Busy
  infer_instance

/-- A reader goes through the loop once. -/
def turn (s : Readers) (r : ℕ) : Readers :=
  match s.pool.pass with
  | (pool, .got inst) => { s with pool, held := (r, inst) :: s.held }
  | (pool, .slot) => { s with pool, cloning := r :: s.cloning }
  | (pool, .wait) => { s with pool, waiting := r :: s.waiting }

/-- One step; `none` where the reader is not at it. -/
def step (s : Readers) : Label → Option Readers
  | .enter r => if s.Busy r then none else some (s.turn r)
  | .resume r => if r ∈ s.woken then some ({ s with woken := s.woken.erase r }.turn r) else none
  | .spurious r => if r ∈ s.waiting then some ({ s with waiting := s.waiting.erase r }.turn r) else none
  | .cloned r =>
    if r ∈ s.cloning then
      some { s with cloning := s.cloning.erase r, held := (r, s.fresh) :: s.held, fresh := s.fresh + 1 }
    else none
  | .cloneFails r =>
    if r ∈ s.cloning then some { s with cloning := s.cloning.erase r, pool := s.pool.giveUp } else none
  -- the unwind passes neither arm of the match
  | .clonePanics r => if r ∈ s.cloning then some { s with cloning := s.cloning.erase r } else none
  | .giveBack r inst reusable =>
    if (r, inst) ∈ s.held then
      some { s with held := s.held.erase (r, inst), pool := s.pool.putBack inst reusable, leaving := r :: s.leaving }
    else none
  | .notify r none =>
    if r ∈ s.leaving ∧ s.waiting = [] then some { s with leaving := s.leaving.erase r } else none
  | .notify r (some w) =>
    if r ∈ s.leaving ∧ w ∈ s.waiting then
      some { s with leaving := s.leaving.erase r, waiting := s.waiting.erase w, woken := w :: s.woken }
    else none

/-- The connections of the pool, idle and held. -/
def conns (s : Readers) : List ℕ := s.pool.state.idle ++ s.held.map Prod.snd

/-- One of those that wait is signalled, or is about to be. -/
def Signalled (s : Readers) : Prop := s.woken ≠ [] ∨ s.leaving ≠ []

/-- **What the pool promises** in every state. -/
structure Sound (s : Readers) : Prop where
  counted : s.pool.state.created = s.pool.state.idle.length + s.held.length + s.cloning.length
  bounded : s.pool.state.created ≤ s.pool.max
  /-- No connection is held by two readers, or held and idle. -/
  once : s.conns.Nodup
  attended : s.waiting ≠ [] → s.Signalled ∨ s.held ≠ [] ∨ s.cloning ≠ []

/-- The step ends a checkout or a clone. -/
def Ends : Label → Prop
  | .cloneFails _ | .clonePanics _ | .giveBack .. => True
  | _ => False

/-- A checkout or a clone that ends while a reader waits leaves one signalled. -/
def Wakes (s : Readers) (l : Label) : Prop :=
  Ends l → s.waiting ≠ [] → ∀ s', s.step l = some s' → s'.Signalled

/-- The step is not a clone that panics, nor one that fails while readers wait and none is signalled. -/
def Guarded (s : Readers) : Label → Prop
  | .clonePanics _ => False
  | .cloneFails _ => s.waiting ≠ [] → s.Signalled
  | _ => True

/-- The part of the promise that is about the connections, with what carries it. -/
structure Accounted (s : Readers) : Prop where
  counted : s.pool.state.created = s.pool.state.idle.length + s.held.length + s.cloning.length
  bounded : s.pool.state.created ≤ s.pool.max
  once : s.conns.Nodup
  room : 0 < s.pool.max
  known : ∀ c ∈ s.conns, c < s.fresh

/-- The invariant. -/
structure Kept (s : Readers) : Prop extends Accounted s where
  attended : s.waiting ≠ [] → s.Signalled ∨ s.held ≠ [] ∨ s.cloning ≠ []

theorem Kept.sound {s : Readers} (h : s.Kept) : s.Sound := ⟨h.counted, h.bounded, h.once, h.attended⟩

theorem kept_opened {max : ℕ} (h : 0 < max) : (opened max).Kept where
  counted := rfl
  bounded := Nat.zero_le _
  once := List.nodup_nil
  room := h
  known _ hc := by cases hc
  attended h := absurd rfl h

/-- **One turn** of the loop leaves a reader that waits only behind connections that are out. -/
theorem turn_kept {s : Readers} (h : s.Accounted) (r : ℕ) : (s.turn r).Kept := by
  obtain ⟨hcount, hbound, honce, hroom, hknown⟩ := h
  rcases s.pool.pass_cases with ⟨inst, idle, hi, hp⟩ | ⟨hi, hlt, hp⟩ | ⟨hi, hfull, hp⟩
  · have hperm : (idle ++ inst :: s.held.map Prod.snd).Perm s.conns := by
      rw [conns, hi]
      exact List.perm_middle
    simp only [turn, hp]
    refine { counted := ?_, bounded := hbound, once := hperm.nodup_iff.2 honce, room := hroom, known := ?_, attended := ?_ }
    · simp only [hi, List.length_cons] at hcount
      simp only [List.length_cons]
      omega
    · intro c hc
      exact hknown c (hperm.mem_iff.1 hc)
    · intro _
      exact .inr (.inl (List.cons_ne_nil _ _))
  · simp only [turn, hp]
    rw [conns, hi] at honce hknown
    refine { counted := ?_, bounded := hlt, once := honce, room := hroom, known := hknown, attended := ?_ }
    · simp only [hi, List.length_nil] at hcount
      simp only [List.length_nil, List.length_cons]
      omega
    · intro _
      exact .inr (.inr (List.cons_ne_nil _ _))
  · simp only [turn, hp]
    refine { counted := hcount, bounded := hbound, once := honce, room := hroom, known := hknown, attended := ?_ }
    intro _
    by_cases hheld : s.held = []
    · by_cases hcl : s.cloning = []
      · -- nothing is out, so there is a slot
        rw [hi, hheld, hcl] at hcount
        simp only [List.length_nil] at hcount
        omega
      · exact .inr (.inr hcl)
    · exact .inr (.inl hheld)

/-- Returning a connection, or discarding it, keeps the count. -/
theorem putBack_accounted {s : Readers} (h : s.Accounted) {r inst : ℕ} (hr : (r, inst) ∈ s.held) (reusable : Bool) :
    Accounted { s with
      held := s.held.erase (r, inst), pool := s.pool.putBack inst reusable, leaving := r :: s.leaving } := by
  obtain ⟨hcount, hbound, honce, hroom, hknown⟩ := h
  have hlen : (s.held.erase (r, inst)).length + 1 = s.held.length := List.length_erase_add_one hr
  have hmap : (s.held.map Prod.snd).Perm (inst :: (s.held.erase (r, inst)).map Prod.snd) :=
    (List.perm_cons_erase hr).map Prod.snd
  have hperm : s.conns.Perm (inst :: (s.pool.state.idle ++ (s.held.erase (r, inst)).map Prod.snd)) :=
    (List.Perm.append_left _ hmap).trans List.perm_middle
  cases reusable with
  | true =>
    refine { counted := ?_, bounded := hbound, once := hperm.nodup_iff.1 honce, room := hroom, known := ?_ }
    · show s.pool.state.created = (inst :: s.pool.state.idle).length + (s.held.erase (r, inst)).length + s.cloning.length
      rw [List.length_cons]
      omega
    · intro c hc
      exact hknown c (hperm.mem_iff.2 hc)
  | false =>
    refine { counted := ?_, bounded := ?_, once := (hperm.nodup_iff.1 honce).of_cons, room := hroom, known := ?_ }
    · show s.pool.state.created - 1 = s.pool.state.idle.length + (s.held.erase (r, inst)).length + s.cloning.length
      omega
    · show s.pool.state.created - 1 ≤ s.pool.max
      omega
    · intro c hc
      exact hknown c (hperm.mem_iff.2 (List.mem_cons_of_mem _ hc))

/-- **One step** keeps the invariant, if it is guarded. -/
theorem step_kept {s s' : Readers} {l : Label} (h : s.Kept) (hl : s.Guarded l) (hs : s.step l = some s') : s'.Kept := by
  cases l with
  | enter r =>
    simp only [step] at hs
    split at hs
    · cases hs
    · cases hs
      exact turn_kept h.toAccounted r
  | resume r =>
    simp only [step] at hs
    split at hs
    · cases hs
      have hacc : Accounted { s with woken := s.woken.erase r } := ⟨h.counted, h.bounded, h.once, h.room, h.known⟩
      exact turn_kept hacc r
    · cases hs
  | spurious r =>
    simp only [step] at hs
    split at hs
    · cases hs
      have hacc : Accounted { s with waiting := s.waiting.erase r } := ⟨h.counted, h.bounded, h.once, h.room, h.known⟩
      exact turn_kept hacc r
    · cases hs
  | cloned r =>
    simp only [step] at hs
    split at hs
    · rename_i hr
      cases hs
      have hlen : (s.cloning.erase r).length + 1 = s.cloning.length := List.length_erase_add_one hr
      have hcount := h.counted
      refine { counted := ?_, bounded := h.bounded, once := ?_, room := h.room, known := ?_, attended := ?_ }
      · simp only [List.length_cons]
        omega
      · refine List.perm_middle.nodup_iff.2 (List.nodup_cons.2 ⟨?_, h.once⟩)
        intro hc
        exact absurd (h.known s.fresh hc) (Nat.lt_irrefl _)
      · intro c hc
        rcases List.mem_cons.1 (List.perm_middle.mem_iff.1 hc) with rfl | hc
        · exact Nat.lt_succ_self _
        · exact Nat.lt_succ_of_lt (h.known c hc)
      · intro _
        exact .inr (.inl (List.cons_ne_nil _ _))
    · cases hs
  | cloneFails r =>
    simp only [step] at hs
    split at hs
    · rename_i hr
      cases hs
      have hlen : (s.cloning.erase r).length + 1 = s.cloning.length := List.length_erase_add_one hr
      have hcount := h.counted
      have hbound := h.bounded
      refine { counted := ?_, bounded := ?_, once := h.once, room := h.room, known := h.known, attended := ?_ }
      · simp only [ReadPool.giveUp_created, ReadPool.giveUp_idle]
        omega
      · simp only [ReadPool.giveUp_created, ReadPool.giveUp_max]
        omega
      · intro hw
        exact .inl (hl hw)
    · cases hs
  | clonePanics r => exact absurd hl id
  | giveBack r inst reusable =>
    simp only [step] at hs
    split at hs
    · rename_i hr
      cases hs
      refine { putBack_accounted h.toAccounted hr reusable with attended := ?_ }
      intro _
      exact .inl (.inr (List.cons_ne_nil _ _))
    · cases hs
  | notify r waiter =>
    cases waiter with
    | none =>
      simp only [step] at hs
      split at hs
      · rename_i hr
        cases hs
        refine { h with attended := ?_ }
        intro hw
        exact absurd hr.2 hw
      · cases hs
    | some w =>
      simp only [step] at hs
      split at hs
      · cases hs
        refine { h with attended := ?_ }
        intro _
        exact .inl (.inl (List.cons_ne_nil _ _))
      · cases hs

/-- A guarded step that ends a checkout or a clone leaves a waiting reader signalled. -/
theorem step_wakes {s s' : Readers} {l : Label} (hl : s.Guarded l) (_ : s.step l = some s') : s.Wakes l := by
  intro hend hw s'' hs
  cases l with
  | cloneFails r =>
    simp only [step] at hs
    split at hs
    · cases hs
      exact hl hw
    · cases hs
  | clonePanics r => exact absurd hl id
  | giveBack r inst reusable =>
    simp only [step] at hs
    split at hs
    · cases hs
      exact .inr (List.cons_ne_nil _ _)
    · cases hs
  | _ => exact absurd hend id

/-- A step that is not guarded breaks the promise, or leaves a reader waiting that nothing has signalled. -/
theorem step_not_sound {s s' : Readers} {l : Label} (h : s.Kept) (hl : ¬s.Guarded l) (hs : s.step l = some s')
    (hwakes : s.Wakes l) : ¬s'.Sound := by
  cases l with
  | cloneFails r =>
    simp only [Guarded, Classical.not_imp] at hl
    have hsig : s'.Signalled := hwakes trivial hl.1 s' hs
    simp only [step] at hs
    split at hs
    · cases hs
      exact absurd hsig hl.2
    · cases hs
  | clonePanics r =>
    simp only [step] at hs
    split at hs
    · rename_i hr
      cases hs
      intro hsound
      have hlen : (s.cloning.erase r).length + 1 = s.cloning.length := List.length_erase_add_one hr
      have hcount := h.counted
      have hcount' := hsound.counted
      simp only at hcount'
      omega
    · cases hs
  | _ => exact absurd trivial hl

/-- **No stranded reader**, in exactly the guarded runs. -/
theorem readers_attended_iff (limits : Option ℕ) (host : ℕ) (ls : List Label) :
    Runs.Always step Sound (opened (readPoolMax limits host)) ls ∧
        Runs.Careful step Wakes (opened (readPoolMax limits host)) ls ↔
      Runs.Careful step Guarded (opened (readPoolMax limits host)) ls :=
  Runs.always_and_careful_iff (fun _ _ _ => step_kept) (fun _ => Kept.sound) (fun _ _ _ _ => step_wakes)
    (fun _ _ _ => step_not_sound) (kept_opened (readPoolMax_pos limits host))

/-- Four readers clone, a fifth waits, and the four clones fail. -/
def clonesFailRun : List Label :=
  [.enter 0, .enter 1, .enter 2, .enter 3, .enter 4, .cloneFails 0, .cloneFails 1, .cloneFails 2, .cloneFails 3]

/-- **A stranded reader**: the pool has four free slots, and nobody is left to say so. -/
theorem clones_fail :
    (∃ s, Runs.run step (opened (readPoolMax (some 1) 8)) clonesFailRun = some s ∧ s.waiting = [4] ∧
      s.pool.state.created = 0 ∧ ¬s.Signalled ∧ s.held = [] ∧ s.cloning = []) ∧
    ¬∀ limits host ls, Runs.Always step Sound (opened (readPoolMax limits host)) ls := by
  have hrun : ∃ s, Runs.run step (opened (readPoolMax (some 1) 8)) clonesFailRun = some s ∧ s.waiting = [4] ∧
      s.pool.state.created = 0 ∧ ¬s.Signalled ∧ s.held = [] ∧ s.cloning = [] :=
    ⟨_, rfl, rfl, rfl, fun h => h.elim (fun hne => hne rfl) fun hne => hne rfl, rfl, rfl⟩
  refine ⟨hrun, ?_⟩
  intro h
  obtain ⟨s, hs, hw, -, hsig, hheld, hcl⟩ := hrun
  rcases ((h (some 1) 8 clonesFailRun).last hs).attended (by simp [hw]) with hs | hs | hs
  · exact hsig hs
  · exact hs hheld
  · exact hs hcl

end Readers

end Latiq.EngineDuckdb
