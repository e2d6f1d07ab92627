import Latiq.Library.Runs
import Mathlib.Data.List.Perm.Basic
import Mathlib.Data.List.Range

/-!
# Draining the HTTP sink

The sink queues each event for a backend: producers push it under the queue's lock, and over the capacity the oldest
are dropped; one poster takes the oldest, posts it, and counts it whether the backend took it or not (nothing is
retried). On shutdown `drain` takes a snapshot of how many events there are and waits until as many are posted or
dropped.

## The model

* `Shared` — the queue and its counters. An event is the number of those before it, and the counters of the posted and
  the dropped are kept with the events that they stand for.
* `Push` — where the holder of the lock is, between the statements of `push`.
* `Drain` — a call of `drain`, between its two reads of the counters. Who waits may look again at any time.
* `step` — one statement of one of them.

## What is proved

* `drain_complete` — in every run the events are balanced, and where no newer event is counted as dropped while an older
  one is being posted, a drain that returns without its warning has left nothing.
* `drain_returns_early` — one posted event and a full queue.
-/

namespace Latiq.Lineage.HttpSink

/-- `QUEUE_CAPACITY`. -/
def queueCapacity : ℕ := 1024

/-- Where `push` is: nobody has the lock; the event is in the queue; it is counted; the oldest are out of the queue and
not yet counted. -/
inductive Push where
  | idle
  | pushed
  | counted
  | evicted (events : List ℕ)
  deriving DecidableEq, Repr

/-- Where `drain` is: before its snapshot, about to look, between reading `posted` and `dropped`, and returned. -/
inductive Waiting where
  | called
  | waiting (target : ℕ)
  | read (target posted : ℕ)
  | quiet
  | warned
  deriving DecidableEq, Repr

/-- A call of `drain`, with the number of events enqueued before it. -/
structure Drain where
  before : ℕ
  stage : Waiting
  deriving DecidableEq, Repr

/-- The queue, the counters, the event being posted, and the calls of `drain`. -/
structure Shared where
  queue : List ℕ
  push : Push
  enqueued : ℕ
  posted : List ℕ
  dropped : List ℕ
  inFlight : Option ℕ
  drains : List Drain
  deriving DecidableEq, Repr

/-- `Shared::default`. -/
def Shared.default : Shared := ⟨[], .idle, 0, [], [], none, []⟩

/-- Who takes a step, and what it finds where that is not in the state. -/
inductive Act where
  /-- `push_back`, with the lock. -/
  | pushBack
  /-- `enqueued.fetch_add`. -/
  | count
  /-- Drops the oldest, over the capacity. -/
  | trim
  /-- `dropped.fetch_add`. -/
  | countDropped
  /-- The poster takes an event. -/
  | pop
  /-- The POST ends, in whatever way, and is counted. -/
  | settle
  | drain
  | snapshot (i : ℕ)
  | readPosted (i : ℕ)
  /-- Compares, and gives up if there is no time left. -/
  | look (i : ℕ) (outOfTime : Bool)
  deriving DecidableEq, Repr

namespace Shared

/-- A call of `drain` is at another stage. -/
def advance (s : Shared) (i before : ℕ) (stage : Waiting) : Shared := { s with drains := s.drains.set i ⟨before, stage⟩ }

/-- One statement. -/
def step (cap : ℕ) (s : Shared) : Act → Option Shared
  | .pushBack => if s.push = .idle then some { s with queue := s.queue ++ [s.enqueued], push := .pushed } else none
  | .count => if s.push = .pushed then some { s with enqueued := s.enqueued + 1, push := .counted } else none
  | .trim =>
    if s.push = .counted then
      let excess := s.queue.length - cap
      if cap < s.queue.length then some { s with queue := s.queue.drop excess, push := .evicted (s.queue.take excess) }
      else some { s with push := .idle }
    else none
  | .countDropped =>
    match s.push with
    | .evicted events => some { s with dropped := s.dropped ++ events, push := .idle }
    | _ => none
  | .pop =>
    -- `pop` takes the lock too, and there is one poster
    match s.push, s.inFlight, s.queue with
    | .idle, none, event :: queue => some { s with queue, inFlight := some event }
    | _, _, _ => none
  | .settle =>
    match s.inFlight with
    | some event => some { s with posted := s.posted ++ [event], inFlight := none }
    | none => none
  | .drain => some { s with drains := s.drains ++ [⟨s.enqueued, .called⟩] }
  | .snapshot i =>
    match s.drains[i]? with
    | some ⟨before, .called⟩ => some (s.advance i before (.waiting s.enqueued))
    | _ => none
  | .readPosted i =>
    match s.drains[i]? with
    | some ⟨before, .waiting target⟩ => some (s.advance i before (.read target s.posted.length))
    | _ => none
  | .look i outOfTime =>
    match s.drains[i]? with
    | some ⟨before, .read target posted⟩ =>
      let settled := posted + s.dropped.length
      some (s.advance i before (if target ≤ settled then .quiet else if outOfTime then .warned else .waiting target))
    | _ => none

/-! ### What is to hold -/

/-- The events that are pushed and not yet counted. -/
def pending (s : Shared) : ℕ := if s.push = .pushed then 1 else 0

/-- The events that are evicted and not yet counted. -/
def evicting (s : Shared) : List ℕ :=
  match s.push with
  | .evicted events => events
  | _ => []

/-- The enqueued events are the posted, the dropped, the queued and the one in flight, with what the holder of the lock has
moved and is about to count. -/
def Balanced (s : Shared) : Prop :=
  s.enqueued + s.pending = s.posted.length + (s.dropped.length + s.evicting.length) + s.queue.length + s.inFlight.toList.length

/-- Behind a drain that returned without its warning, each event from before its call is posted or counted as dropped. -/
def Drained (s : Shared) : Prop :=
  ∀ dr ∈ s.drains, dr.stage = .quiet → ∀ e < dr.before, e ∈ s.posted ∨ e ∈ s.dropped

/-- A call that has not returned. -/
def Open (dr : Drain) : Prop := dr.stage ≠ .quiet ∧ dr.stage ≠ .warned

/-- While a drain waits and an event from before its call is being posted, no event from behind its call is counted as
dropped. -/
def DropsOlder (s : Shared) (a : Act) : Prop :=
  a = .countDropped → ∀ dr ∈ s.drains, Open dr → ∀ f ∈ s.inFlight, f < dr.before → ∀ e ∈ s.evicting, e < dr.before

instance : DecidablePred Open := fun dr => inferInstanceAs (Decidable (dr.stage ≠ .quiet ∧ dr.stage ≠ .warned))

instance (s : Shared) (a : Act) : Decidable (s.DropsOlder a) :=
  inferInstanceAs (Decidable (a = .countDropped → ∀ dr ∈ s.drains, Open dr → ∀ f ∈ s.inFlight, f < dr.before →
    ∀ e ∈ s.evicting, e < dr.before))

/-! ### Which events the counts stand for -/

/-- The number of events that have left the queue. -/
def gone (s : Shared) : ℕ := s.posted.length + s.dropped.length + s.inFlight.toList.length + s.evicting.length

/-- Events leave the queue in the order of their numbers, and what has left it is somewhere. -/
structure Ordered (s : Shared) : Prop where
  queue : s.queue = List.range' s.gone s.queue.length
  evicting : s.evicting = List.range' (s.gone - s.evicting.length) s.evicting.length
  somewhere : ∀ e < s.gone, e ∈ s.posted ∨ e ∈ s.dropped ∨ e ∈ s.inFlight ∨ e ∈ s.evicting
  total : s.enqueued + s.pending = s.gone + s.queue.length
  pending_le : s.pending ≤ s.queue.length

variable {cap : ℕ} {s s' : Shared}

theorem ordered_default : Ordered Shared.default where
  queue := rfl
  evicting := rfl
  somewhere := nofun
  total := rfl
  pending_le := Nat.le_refl 0

theorem Ordered.balanced (h : s.Ordered) : s.Balanced := by
  have htotal := h.total
  unfold gone at htotal
  unfold Balanced
  omega

/-- The events in the queue have not left it. -/
theorem Ordered.gone_le (h : s.Ordered) : s.gone ≤ s.enqueued := by
  have htotal := h.total
  have hpending := h.pending_le
  omega

/-- What is in order where nobody is at `evicted` or `pushed`. -/
theorem ordered_iff (hpending : s.pending = 0) (hevicting : s.evicting = []) :
    s.Ordered ↔ s.queue = List.range' s.gone s.queue.length ∧
      (∀ e < s.gone, e ∈ s.posted ∨ e ∈ s.dropped ∨ e ∈ s.inFlight) ∧ s.enqueued = s.gone + s.queue.length := by
  constructor
  · intro h
    have htotal := h.total
    have hsomewhere := h.somewhere
    rw [hevicting] at hsomewhere
    simp only [List.not_mem_nil, or_false] at hsomewhere
    exact ⟨h.queue, hsomewhere, by omega⟩
  · rintro ⟨hqueue, hsomewhere, htotal⟩
    refine ⟨hqueue, by rw [hevicting]; rfl, ?_, by omega, by omega⟩
    rw [hevicting]
    simpa only [List.not_mem_nil, or_false] using hsomewhere

theorem Ordered.pushBack (h : s.Ordered) (hidle : s.push = .idle) :
    Ordered { s with queue := s.queue ++ [s.enqueued], push := .pushed } := by
  have hgone : s.gone = s.posted.length + s.dropped.length + s.inFlight.toList.length := by
    simp [Shared.gone, Shared.evicting, hidle]
  obtain ⟨hqueue, hsomewhere, htotal⟩ := (ordered_iff (by simp [Shared.pending, hidle])
    (by simp [Shared.evicting, hidle])).1 h
  rw [hgone] at hqueue hsomewhere htotal
  refine ⟨?_, rfl, ?_, ?_, by simp [Shared.pending]⟩
  · simp only [Shared.gone, Shared.evicting, List.length_append, List.length_singleton, List.length_nil, Nat.add_zero]
    rw [List.range'_1_concat, ← hqueue, htotal]
  · intro e he
    rcases hsomewhere e he with hp | hd | hf
    · exact .inl hp
    · exact .inr (.inl hd)
    · exact .inr (.inr (.inl hf))
  · simp only [Shared.gone, Shared.evicting, Shared.pending, List.length_append, List.length_singleton, List.length_nil,
      Nat.add_zero, if_true]
    omega

theorem Ordered.count (h : s.Ordered) (hpushed : s.push = .pushed) :
    Ordered { s with enqueued := s.enqueued + 1, push := .counted } := by
  have hgone : Shared.gone { s with enqueued := s.enqueued + 1, push := .counted } = s.gone := by
    simp [Shared.gone, Shared.evicting, hpushed]
  have htotal := h.total
  have hsomewhere := h.somewhere
  simp only [Shared.pending, Shared.evicting, hpushed, if_true, List.not_mem_nil, or_false] at htotal hsomewhere
  refine (ordered_iff rfl rfl).2 ?_
  rw [hgone]
  exact ⟨h.queue, hsomewhere, htotal⟩

theorem Ordered.evict (h : s.Ordered) (hcounted : s.push = .counted) {k : ℕ} (hk : k ≤ s.queue.length) :
    Ordered { s with queue := s.queue.drop k, push := .evicted (s.queue.take k) } := by
  obtain ⟨hqueue, hsomewhere, htotal⟩ := (ordered_iff (by simp [Shared.pending, hcounted])
    (by simp [Shared.evicting, hcounted])).1 h
  have hgone : Shared.gone { s with queue := s.queue.drop k, push := .evicted (s.queue.take k) } = s.gone + k := by
    simp [Shared.gone, Shared.evicting, hcounted, hk]
  have htake : s.queue.take k = List.range' s.gone k := by
    rw [hqueue, List.take_range'_of_length_ge hk]
  constructor
  · rw [hgone]
    dsimp only
    rw [List.length_drop]
    conv_lhs => rw [hqueue, List.drop_range', Nat.mul_one]
  · rw [hgone]
    simp only [Shared.evicting, htake, List.length_range', Nat.add_sub_cancel]
  · rw [hgone]
    simp only [Shared.evicting, htake, List.mem_range'_1]
    intro e he
    by_cases hold : e < s.gone
    · rcases hsomewhere e hold with hp | hd | hf
      · exact .inl hp
      · exact .inr (.inl hd)
      · exact .inr (.inr (.inl hf))
    · exact .inr (.inr (.inr ⟨Nat.not_lt.1 hold, he⟩))
  · rw [hgone]
    simp only [Shared.pending, List.length_drop, reduceCtorEq, if_false]
    omega
  · exact Nat.zero_le _

theorem Ordered.release (h : s.Ordered) (hcounted : s.push = .counted) : Ordered { s with push := .idle } := by
  have hgone : Shared.gone { s with push := .idle } = s.gone := by simp [Shared.gone, Shared.evicting, hcounted]
  refine (ordered_iff rfl rfl).2 ?_
  rw [hgone]
  exact (ordered_iff (by simp [Shared.pending, hcounted]) (by simp [Shared.evicting, hcounted])).1 h

theorem Ordered.countDropped (h : s.Ordered) {events : List ℕ} (hevicted : s.push = .evicted events) :
    Ordered { s with dropped := s.dropped ++ events, push := .idle } := by
  have hgone : Shared.gone { s with dropped := s.dropped ++ events, push := .idle } = s.gone := by
    simp only [Shared.gone, Shared.evicting, hevicted, List.length_append, List.length_nil]
    omega
  have htotal := h.total
  have hsomewhere := h.somewhere
  simp only [Shared.pending, Shared.evicting, hevicted, reduceCtorEq, if_false, Nat.add_zero] at htotal hsomewhere
  refine (ordered_iff rfl rfl).2 ?_
  rw [hgone]
  refine ⟨h.queue, fun e he => ?_, htotal⟩
  rcases hsomewhere e he with hp | hd | hf | hev
  · exact .inl hp
  · exact .inr (.inl (List.mem_append_left _ hd))
  · exact .inr (.inr hf)
  · exact .inr (.inl (List.mem_append_right _ hev))

theorem Ordered.pop (h : s.Ordered) (hidle : s.push = .idle) (hnone : s.inFlight = none) {event : ℕ} {queue : List ℕ}
    (hcons : s.queue = event :: queue) :
    event = s.gone ∧ Ordered { s with queue, inFlight := some event } := by
  obtain ⟨hqueue, hsomewhere, htotal⟩ := (ordered_iff (by simp [Shared.pending, hidle])
    (by simp [Shared.evicting, hidle])).1 h
  rw [hcons, List.length_cons, List.range'_succ, List.cons.injEq] at hqueue
  obtain ⟨rfl, hrest⟩ := hqueue
  have hgone : Shared.gone { s with queue, inFlight := some s.gone } = s.gone + 1 := by
    simp only [Shared.gone, Shared.evicting, hidle, hnone, Option.toList_some, Option.toList_none, List.length_singleton,
      List.length_nil]
  refine ⟨rfl, (ordered_iff (by simp [Shared.pending, hidle]) (by simp [Shared.evicting, hidle])).2 ?_⟩
  rw [hgone]
  refine ⟨hrest, fun e he => ?_, ?_⟩
  · rcases Nat.lt_succ_iff_lt_or_eq.1 he with hlt | rfl
    · rcases hsomewhere e hlt with hp | hd | hf
      · exact .inl hp
      · exact .inr (.inl hd)
      · rw [hnone] at hf
        cases hf
    · exact .inr (.inr rfl)
  · rw [hcons, List.length_cons] at htotal
    dsimp only
    omega

theorem Ordered.settle (h : s.Ordered) {event : ℕ} (hsome : s.inFlight = some event) :
    Ordered { s with posted := s.posted ++ [event], inFlight := none } := by
  have hgone : Shared.gone { s with posted := s.posted ++ [event], inFlight := none } = s.gone := by
    simp only [Shared.gone, Shared.evicting, hsome, List.length_append, List.length_singleton, Option.toList_some,
      Option.toList_none, List.length_nil]
    omega
  refine ⟨hgone ▸ h.queue, hgone ▸ h.evicting, fun e he => ?_, hgone ▸ h.total, h.pending_le⟩
  rcases h.somewhere e (hgone ▸ he) with hp | hd | hf | hev
  · exact .inl (List.mem_append_left _ hp)
  · exact .inr (.inl hd)
  · rw [hsome] at hf
    obtain rfl := Option.some.inj hf
    exact .inl (by simp)
  · exact .inr (.inr (.inr hev))

theorem Ordered.of_drains (h : s.Ordered) (drains : List Drain) : Ordered { s with drains } :=
  ⟨h.queue, h.evicting, h.somewhere, h.total, h.pending_le⟩

/-! ### What the calls of `drain` know -/

/-- While an event from before the call is being posted, fewer events are counted than there were before it. -/
def Ahead (s : Shared) (before : ℕ) : Prop := ∀ f ∈ s.inFlight, f < before → s.posted.length + s.dropped.length < before

/-- What is so of a call at each of its stages. -/
def Knows (s : Shared) (before : ℕ) : Waiting → Prop
  | .called => s.Ahead before
  | .waiting target => before ≤ target ∧ s.Ahead before
  | .read target posted => before ≤ target ∧ posted ≤ s.posted.length ∧ s.Ahead before
  | .quiet => ∀ e < before, e ∈ s.posted ∨ e ∈ s.dropped
  | .warned => True

/-- The invariant of the runs. -/
structure Inv (s : Shared) : Prop extends Ordered s where
  before_le : ∀ dr ∈ s.drains, dr.before ≤ s.enqueued
  knows : ∀ dr ∈ s.drains, s.Knows dr.before dr.stage

/-- What a call knows stays so while the counts grow. -/
theorem Knows.of_grows {before : ℕ} {stage : Waiting} (h : s.Knows before stage) (hp : s.posted <+: s'.posted)
    (hd : s.dropped <+: s'.dropped) (hahead : Open ⟨before, stage⟩ → s.Ahead before → s'.Ahead before) :
    s'.Knows before stage := by
  cases stage with
  | called => exact hahead ⟨nofun, nofun⟩ h
  | waiting target => exact ⟨h.1, hahead ⟨nofun, nofun⟩ h.2⟩
  | read target posted => exact ⟨h.1, h.2.1.trans hp.length_le, hahead ⟨nofun, nofun⟩ h.2.2⟩
  | quiet => exact fun e he => (h e he).imp (fun hmem => hp.subset hmem) fun hmem => hd.subset hmem
  | warned => trivial

theorem Inv.of_grows (h : s.Inv) (hs' : s'.Ordered) (hdrains : s'.drains = s.drains) (hen : s.enqueued ≤ s'.enqueued)
    (hp : s.posted <+: s'.posted) (hd : s.dropped <+: s'.dropped)
    (hahead : ∀ dr ∈ s.drains, Open dr → s.Ahead dr.before → s'.Ahead dr.before) : s'.Inv where
  toOrdered := hs'
  before_le dr hdr := (h.before_le dr (hdrains ▸ hdr)).trans hen
  knows dr hdr := (h.knows dr (hdrains ▸ hdr)).of_grows hp hd (hahead dr (hdrains ▸ hdr))

theorem Inv.advance (h : s.Inv) {i before : ℕ} {stage stage' : Waiting} (hi : s.drains[i]? = some ⟨before, stage⟩)
    (hknows : s.Knows before stage → s.Knows before stage') : (s.advance i before stage').Inv := by
  have hmem := List.mem_of_getElem? hi
  have hall : ∀ dr ∈ (s.advance i before stage').drains, dr.before ≤ s.enqueued ∧ s.Knows dr.before dr.stage := by
    intro dr hdr
    rcases List.mem_or_eq_of_mem_set hdr with hold | rfl
    · exact ⟨h.before_le dr hold, h.knows dr hold⟩
    · exact ⟨h.before_le ⟨before, stage⟩ hmem, hknows (h.knows ⟨before, stage⟩ hmem)⟩
  exact ⟨h.toOrdered.of_drains _, fun dr hdr => (hall dr hdr).1, fun dr hdr => (hall dr hdr).2⟩

/-- What is counted of what has left the queue. -/
theorem settled_add (s : Shared) :
    s.posted.length + s.dropped.length + (s.inFlight.toList.length + s.evicting.length) = s.gone := by
  unfold gone
  omega

/-- An event that is being posted is not counted. -/
theorem settled_lt {f : ℕ} (hf : f ∈ s.inFlight) : s.posted.length + s.dropped.length < s.gone := by
  have hadd := s.settled_add
  rw [Option.mem_def.1 hf, Option.toList_some, List.length_singleton] at hadd
  omega

/-- **What a drain finds**: where as many are counted as there were before the call, these are they. -/
theorem Ordered.settled (h : s.Ordered) {before : ℕ} (hahead : s.Ahead before)
    (hcount : before ≤ s.posted.length + s.dropped.length) : ∀ e < before, e ∈ s.posted ∨ e ∈ s.dropped := by
  intro e he
  have hadd := s.settled_add
  rcases h.somewhere e (by omega) with hp | hd | hf | hev
  · exact .inl hp
  · exact .inr hd
  · exact absurd (hahead e hf he) (Nat.not_lt.2 hcount)
  · rw [h.evicting, List.mem_range'_1] at hev
    omega

/-- **Every step that drops older events only** keeps the invariant. -/
theorem Inv.step (h : s.Inv) {a : Act} (hgood : s.DropsOlder a) (hs : s.step cap a = some s') : s'.Inv := by
  cases a with
  | pushBack =>
    simp only [Shared.step, Option.ite_none_right_eq_some, Option.some.injEq] at hs
    obtain ⟨hidle, rfl⟩ := hs
    exact h.of_grows (h.pushBack hidle) rfl le_rfl List.prefix_rfl List.prefix_rfl fun _ _ _ hahead => hahead
  | count =>
    simp only [Shared.step, Option.ite_none_right_eq_some, Option.some.injEq] at hs
    obtain ⟨hpushed, rfl⟩ := hs
    exact h.of_grows (h.count hpushed) rfl (Nat.le_succ _) List.prefix_rfl List.prefix_rfl fun _ _ _ hahead => hahead
  | trim =>
    simp only [Shared.step, Option.ite_none_right_eq_some] at hs
    obtain ⟨hcounted, hs⟩ := hs
    split_ifs at hs with hover
    · obtain rfl := Option.some.inj hs
      exact h.of_grows (h.evict hcounted (Nat.sub_le _ _)) rfl le_rfl List.prefix_rfl List.prefix_rfl
        fun _ _ _ hahead => hahead
    · obtain rfl := Option.some.inj hs
      exact h.of_grows (h.release hcounted) rfl le_rfl List.prefix_rfl List.prefix_rfl fun _ _ _ hahead => hahead
  | countDropped =>
    simp only [Shared.step] at hs
    split at hs
    · rename_i events hevicted
      obtain rfl := Option.some.inj hs
      refine h.of_grows (h.countDropped hevicted) rfl le_rfl List.prefix_rfl (List.prefix_append _ _) ?_
      intro dr hdr hopen hahead f hf hlt
      have holder := hgood rfl dr hdr hopen f hf hlt
      have hlast := h.evicting
      have hadd := s.settled_add
      have hevicting : s.evicting = events := by simp [Shared.evicting, hevicted]
      rw [Option.mem_def.1 hf, Option.toList_some, List.length_singleton] at hadd
      rw [hevicting] at holder hlast hadd
      dsimp only
      rw [List.length_append]
      rcases Nat.eq_zero_or_pos events.length with hnil | hpos
      · have hfew := hahead f hf hlt
        omega
      · have hmem : s.gone - 1 ∈ events := by
          rw [hlast, List.mem_range'_1]
          omega
        have hbefore := holder _ hmem
        omega
    · cases hs
  | pop =>
    simp only [Shared.step] at hs
    split at hs
    · rename_i event queue hidle hnone hcons
      obtain rfl := Option.some.inj hs
      obtain ⟨rfl, hordered⟩ := h.pop hidle hnone hcons
      refine h.of_grows hordered rfl le_rfl List.prefix_rfl List.prefix_rfl ?_
      intro dr hdr hopen hahead f hf hlt
      obtain rfl := Option.some.inj hf
      have hadd := s.settled_add
      dsimp only
      omega
    · cases hs
  | settle =>
    simp only [Shared.step] at hs
    split at hs
    · rename_i event hsome
      obtain rfl := Option.some.inj hs
      exact h.of_grows (h.settle hsome) rfl le_rfl (List.prefix_append _ _) List.prefix_rfl fun _ _ _ _ f hf => nomatch hf
    · cases hs
  | drain =>
    obtain rfl := Option.some.inj hs
    refine ⟨h.toOrdered.of_drains _, fun dr hdr => ?_, fun dr hdr => ?_⟩
    · rcases List.mem_append.1 hdr with hdr | hdr
      · exact h.before_le dr hdr
      · rw [List.mem_singleton.1 hdr]
    · rcases List.mem_append.1 hdr with hdr | hdr
      · exact h.knows dr hdr
      · rw [List.mem_singleton.1 hdr]
        exact fun f hf _ => (settled_lt hf).trans_le h.gone_le
  | snapshot i =>
    simp only [Shared.step] at hs
    split at hs
    · rename_i before hi
      obtain rfl := Option.some.inj hs
      exact h.advance hi fun hahead => ⟨h.before_le _ (List.mem_of_getElem? hi), hahead⟩
    · cases hs
  | readPosted i =>
    simp only [Shared.step] at hs
    split at hs
    · rename_i before target hi
      obtain rfl := Option.some.inj hs
      exact h.advance hi fun hknows => ⟨hknows.1, le_rfl, hknows.2⟩
    · cases hs
  | look i outOfTime =>
    simp only [Shared.step] at hs
    split at hs
    · rename_i before target posted hi
      obtain rfl := Option.some.inj hs
      refine h.advance hi fun ⟨htarget, hposted, hahead⟩ => ?_
      split_ifs with hsettled htime
      · exact h.toOrdered.settled hahead (by omega)
      · trivial
      · exact ⟨htarget, hahead⟩
    · cases hs

theorem inv_default : Shared.default.Inv where
  toOrdered := ordered_default
  before_le := nofun
  knows := nofun

theorem Inv.drained (h : s.Inv) : s.Drained := by
  intro dr hdr hquiet
  have hknows := h.knows dr hdr
  rw [hquiet] at hknows
  exact hknows

/-- **Draining is complete** in every run in which, while a drain waits and an event from before its call is being posted, no
event from behind its call is counted as dropped; and at every moment the events are balanced. -/
theorem drain_complete (cap : ℕ) (acts : List Act) (h : Runs.Careful (step cap) DropsOlder Shared.default acts) :
    Runs.Always (step cap) (fun s => s.Balanced ∧ s.Drained) Shared.default acts :=
  Runs.always_of_careful (I := Inv) (fun _ _ _ hinv hgood hs => hinv.step hgood hs)
    (fun _ hinv => ⟨hinv.toOrdered.balanced, hinv.drained⟩) inv_default h

/-- An event that is pushed within the capacity. -/
def pushing : List Act := [.pushBack, .count, .trim]

/-- Two events in a queue of one, and a drain that waits for the second to be posted. -/
def shutdown : List Act :=
  pushing ++ pushing ++ [.countDropped, .pop, .drain, .snapshot 0, .settle, .readPosted 0, .look 0 false]

theorem shutdown_drained :
    Runs.Always (step 1) (fun s => s.Balanced ∧ s.Drained) Shared.default shutdown ∧
      (Runs.run (step 1) Shared.default shutdown).map drains = some [⟨2, .quiet⟩] :=
  ⟨drain_complete 1 shutdown (by decide), by decide⟩

/-! ### One posted event and a full queue -/

/-- Pushes that fit. -/
theorem run_pushing (n : ℕ) {s : Shared} (hidle : s.push = .idle) (hfit : s.queue.length + n ≤ cap) :
    Runs.run (step cap) s (List.replicate n pushing).flatten =
      some { s with queue := s.queue ++ List.range' s.enqueued n, enqueued := s.enqueued + n } := by
  induction n generalizing s with
  | zero => simp
  | succ n ih =>
    have hone : Runs.run (step cap) s pushing =
        some { s with queue := s.queue ++ [s.enqueued], enqueued := s.enqueued + 1 } := by
      have hroom : ¬cap < (s.queue ++ [s.enqueued]).length := by
        rw [List.length_append, List.length_singleton]
        omega
      simp [pushing, Runs.run, Shared.step, hidle] at hroom ⊢
      exact hroom
    rw [List.replicate_succ, List.flatten_cons]
    refine Runs.run_append.2 ⟨_, hone, ?_⟩
    refine Eq.trans (ih ?_ ?_) ?_
    · exact hidle
    · dsimp only
      rw [List.length_append, List.length_singleton]
      omega
    · simp [List.range'_succ, Nat.add_assoc, Nat.add_comm 1 n]

/-- A push that evicts the oldest. -/
theorem run_pushing_full {e : ℕ} {queue : List ℕ} (hidle : s.push = .idle) (hqueue : s.queue = e :: queue)
    (hfull : s.queue.length = cap) :
    Runs.run (step cap) s (pushing ++ [.countDropped]) = some { s with
      queue := queue ++ [s.enqueued], enqueued := s.enqueued + 1, dropped := s.dropped ++ [e] } := by
  have hlen : (e :: queue).length = cap := hqueue ▸ hfull
  simp [pushing, Runs.run, Shared.step, hidle, hqueue] at hlen ⊢
  simp [← hlen]

/-- An event is being posted when the shutdown begins. -/
def posting : List Act := pushing ++ [.pop, .drain, .snapshot 0]

/-- Traffic fills the queue, its next event evicts one, and the drain looks. -/
def traffic : List Act :=
  (List.replicate queueCapacity pushing).flatten ++ (pushing ++ [.countDropped] ++ [.readPosted 0, .look 0 false])

/-- The drain returns while the only event from before its call is still being posted: one from behind it was dropped. -/
theorem drain_returns_early :
    ¬Runs.Always (step queueCapacity) (fun s => s.Balanced ∧ s.Drained) Shared.default (posting ++ traffic) := by
  intro h
  have hfirst : Runs.run (step queueCapacity) Shared.default posting =
      some ⟨[], .idle, 1, [], [], some 0, [⟨1, .waiting 1⟩]⟩ := by
    decide
  have hfull : Runs.run (step queueCapacity) ⟨[], .idle, 1, [], [], some 0, [⟨1, .waiting 1⟩]⟩ _ = some _ :=
    run_pushing queueCapacity rfl (by simp)
  have hover : Runs.run (step queueCapacity)
      ⟨List.range' 1 queueCapacity, .idle, 1 + queueCapacity, [], [], some 0, [⟨1, .waiting 1⟩]⟩ _ = some _ :=
    run_pushing_full rfl List.range'_succ List.length_range'
  have hlook : Runs.run (step queueCapacity)
      ⟨List.range' 2 (queueCapacity - 1) ++ [1 + queueCapacity], .idle, 1 + queueCapacity + 1, [], [1], some 0,
        [⟨1, .waiting 1⟩]⟩ [.readPosted 0, .look 0 false] =
      some ⟨List.range' 2 (queueCapacity - 1) ++ [1 + queueCapacity], .idle, 1 + queueCapacity + 1, [], [1], some 0,
        [⟨1, .quiet⟩]⟩ := rfl
  have hrun := Runs.run_append.2 ⟨_, hfirst, Runs.run_append.2 ⟨_, hfull, Runs.run_append.2 ⟨_, hover, hlook⟩⟩⟩
  have hdrained := (h.last hrun).2 ⟨1, .quiet⟩ List.mem_cons_self rfl 0 Nat.one_pos
  simp at hdrained

end Shared

end Latiq.Lineage.HttpSink
