import Latiq.Library.RustStr
import Latiq.Library.Runs

/-!
# The cached channels to other nodes

A channel to a node is made once and cached, behind a lock. `GrpcForwarder::client` (and `stream_client`, of another cache)
keeps the lock while it connects; `GrpcNodeMaterializer::client` of the control plane gives it back, and takes it again to
store the channel. The callers run in any order; a call that waits for the network goes on when an answer comes, and a
caller may go at any time.

## What is proved

* `proceeds_iff` — a forward to a cached peer can go on without an answer of the network exactly where no forward to a
  peer that is not cached has the lock.
* `no_blocking_iff` — of the forwarder, in every state of a run exactly where no forward to such a peer takes the lock
  before one to a cached peer; of the node client always. No address gets a second channel from the forwarder, and a
  failed connect leaves the caches as they are.
-/

namespace Latiq.PondNode

open RustStr (Text)

namespace ChannelCache

/-- Where a caller is. -/
inductive Pc where
  /-- It waits for the lock, to look. -/
  | waiting (endpoint : Text)
  /-- It has the lock, to look. -/
  | looking (endpoint : Text)
  | connecting (endpoint : Text)
  /-- It waits for the lock, to store its channel. -/
  | connected (endpoint : Text) (channel : ℕ)
  /-- It has the lock, to store its channel. -/
  | storing (endpoint : Text) (channel : ℕ)
  | done (endpoint : Text) (channel : ℕ)
  | failed (endpoint : Text)
  /-- Its future was dropped. -/
  | dropped
  deriving DecidableEq, Repr

/-- A cache, and its callers: each is known by its place in the list. -/
structure Cache where
  /-- Who has the lock. -/
  lock : Option ℕ
  map : List (Text × ℕ)
  callers : List Pc
  deriving DecidableEq, Repr

/-- Nothing is cached, and nobody has called. -/
def start : Cache := ⟨none, [], []⟩

inductive Label where
  | call (endpoint : Text)
  | acquire (i : ℕ)
  | look (i : ℕ)
  /-- The connect of a caller ends. -/
  | answer (i : ℕ) (channel : Option ℕ)
  | store (i : ℕ)
  | drop (i : ℕ)
  deriving DecidableEq, Repr

/-- `HashMap::insert`. -/
def put (endpoint : Text) (channel : ℕ) (map : List (Text × ℕ)) : List (Text × ℕ) :=
  (endpoint, channel) :: map.filter fun e => e.1 ≠ endpoint

namespace Cache

variable (s : Cache)

def pc (i : ℕ) : Option Pc := s.callers[i]?

/-- A caller goes on. -/
def goes (i : ℕ) (p : Pc) : Cache := { s with callers := s.callers.set i p }

/-- The lock is given back, if this caller has it. -/
def release (i : ℕ) : Cache := { s with lock := if s.lock = some i then none else s.lock }

end Cache

/-- `client`: `across` says that the lock is kept across the connect. -/
def step (across : Bool) (s : Cache) : Label → Option Cache
  | .call a => some { s with callers := s.callers ++ [.waiting a] }
  | .acquire i =>
    if s.lock = none then
      match s.pc i with
      | some (.waiting a) => some { s.goes i (.looking a) with lock := some i }
      | some (.connected a ch) => some { s.goes i (.storing a ch) with lock := some i }
      | _ => none
    else none
  | .look i =>
    match s.pc i with
    | some (.looking a) =>
      match s.map.lookup a with
      | some ch => some ((s.release i).goes i (.done a ch))
      | none => some ((if across then s else s.release i).goes i (.connecting a))
    | _ => none
  | .answer i channel =>
    match s.pc i, channel with
    | some (.connecting a), some ch =>
      if across then some { (s.release i).goes i (.done a ch) with map := put a ch s.map }
      else some (s.goes i (.connected a ch))
    | some (.connecting a), none => some ((s.release i).goes i (.failed a))
    | _, _ => none
  | .store i =>
    match s.pc i with
    | some (.storing a ch) => some { (s.release i).goes i (.done a ch) with map := put a ch s.map }
    | _ => none
  | .drop i =>
    match s.pc i with
    | none | some (.done _ _) | some (.failed _) | some .dropped => none
    | some _ => some ((s.release i).goes i .dropped)

/-- `GrpcForwarder::client`, and `stream_client`. -/
def forwarderClient : Cache → Label → Option Cache := step true

/-- `GrpcNodeMaterializer::client`. -/
def nodeClient : Cache → Label → Option Cache := step false

/-! ### What is asked of a cache -/

/-- A step that waits neither for the network nor for a caller to go. -/
def Label.Local : Label → Prop
  | .answer _ _ | .drop _ => False
  | _ => True

/-- Every forward to a cached peer can go on to its channel, with nothing to wait for but steps like its own. -/
def Proceeds (across : Bool) (s : Cache) : Prop :=
  ∀ i a, s.pc i = some (.waiting a) → (s.map.lookup a).isSome →
    ∃ ls t ch, (∀ l ∈ ls, l.Local) ∧ Runs.run (step across) s ls = some t ∧ t.pc i = some (.done a ch)

/-- Nobody has the lock that has nothing cached for its endpoint. -/
def Free (s : Cache) : Prop := ∀ j ∈ s.lock, ∃ b, s.pc j = some (.looking b) ∧ (s.map.lookup b).isSome

/-- Every caller that got a channel for its endpoint got the cached one. -/
def OneChannel (s : Cache) : Prop := ∀ i a ch, s.pc i = some (.done a ch) → s.map.lookup a = some ch

/-- Every endpoint that somebody has a channel for is cached. -/
def Cached (s : Cache) : Prop := ∀ i a ch, s.pc i = some (.done a ch) → (s.map.lookup a).isSome

/-! ### What a step does -/

theorem lookup_put (a : Text) (ch : ℕ) (map : List (Text × ℕ)) (b : Text) :
    (put a ch map).lookup b = if b = a then some ch else map.lookup b := by
  unfold put
  by_cases h : b = a
  · subst h
    rw [if_pos rfl, List.lookup_cons_self]
  · rw [if_neg h, List.lookup_cons, beq_false_of_ne h]
    show (map.filter fun e => decide (e.1 ≠ a)).lookup b = map.lookup b
    induction map with
    | nil => rfl
    | cons e map ih =>
      obtain ⟨k, w⟩ := e
      by_cases hk : k = a
      · subst hk
        rw [List.filter_cons_of_neg (by simp), List.lookup_cons, beq_false_of_ne h, ih]
      · rw [List.filter_cons_of_pos (by simpa using hk), List.lookup_cons, List.lookup_cons, ih]

theorem isSome_lookup_put {a b : Text} {ch : ℕ} {map : List (Text × ℕ)} (h : (map.lookup b).isSome) :
    ((put a ch map).lookup b).isSome := by
  rw [lookup_put]
  split_ifs
  · rfl
  · exact h

section

variable {s : Cache} {i j : ℕ} {p q : Pc}

theorem pc_goes (h : s.pc i = some q) : (s.goes i p).pc j = if j = i then some p else s.pc j := by
  have hlt : i < s.callers.length := (List.getElem?_eq_some_iff.1 h).1
  rw [Cache.pc, Cache.goes, List.getElem?_set]
  by_cases hij : j = i
  · rw [if_pos hij, if_pos hij.symm, if_pos hlt]
  · rw [if_neg hij, if_neg fun heq => hij heq.symm]
    rfl

theorem pc_call {a : Text} (h : s.pc i = some q) : Cache.pc { s with callers := s.callers ++ [.waiting a] } i = some q := by
  have hlt : i < s.callers.length := (List.getElem?_eq_some_iff.1 h).1
  rw [Cache.pc, List.getElem?_append_left hlt]
  exact h

theorem pc_of_call {a : Text} (h : Cache.pc { s with callers := s.callers ++ [.waiting a] } i = some q) :
    s.pc i = some q ∨ i = s.callers.length ∧ q = .waiting a := by
  rw [Cache.pc, List.getElem?_append] at h
  split_ifs at h with hlt
  · exact .inl h
  · obtain ⟨hi, hq⟩ := List.getElem?_eq_some_iff.1 h
    rw [List.length_singleton] at hi
    exact .inr ⟨by omega, by simpa using hq.symm⟩

end

/-- The steps. -/
inductive Moves (across : Bool) (s : Cache) : Label → Cache → Prop where
  | call (a : Text) : Moves across s (.call a) { s with callers := s.callers ++ [.waiting a] }
  | enter (i : ℕ) (a : Text) (hl : s.lock = none) (h : s.pc i = some (.waiting a)) :
    Moves across s (.acquire i) { s.goes i (.looking a) with lock := some i }
  | again (i : ℕ) (a : Text) (ch : ℕ) (hl : s.lock = none) (h : s.pc i = some (.connected a ch)) :
    Moves across s (.acquire i) { s.goes i (.storing a ch) with lock := some i }
  | hit (i : ℕ) (a : Text) (ch : ℕ) (h : s.pc i = some (.looking a)) (hc : s.map.lookup a = some ch) :
    Moves across s (.look i) ((s.release i).goes i (.done a ch))
  | miss (i : ℕ) (a : Text) (h : s.pc i = some (.looking a)) (hc : s.map.lookup a = none) :
    Moves across s (.look i) ((if across then s else s.release i).goes i (.connecting a))
  | made (i : ℕ) (a : Text) (ch : ℕ) (h : s.pc i = some (.connecting a)) (hac : across = true) :
    Moves across s (.answer i (some ch)) { (s.release i).goes i (.done a ch) with map := put a ch s.map }
  | received (i : ℕ) (a : Text) (ch : ℕ) (h : s.pc i = some (.connecting a)) (hac : across = false) :
    Moves across s (.answer i (some ch)) (s.goes i (.connected a ch))
  | refused (i : ℕ) (a : Text) (h : s.pc i = some (.connecting a)) :
    Moves across s (.answer i none) ((s.release i).goes i (.failed a))
  | stored (i : ℕ) (a : Text) (ch : ℕ) (h : s.pc i = some (.storing a ch)) :
    Moves across s (.store i) { (s.release i).goes i (.done a ch) with map := put a ch s.map }
  | dropped (i : ℕ) (p : Pc) (h : s.pc i = some p) : Moves across s (.drop i) ((s.release i).goes i .dropped)

theorem moves_of_step {across : Bool} {s s' : Cache} {l : Label} (h : step across s l = some s') : Moves across s l s' := by
  cases l with
  | call a =>
    cases h
    exact .call a
  | acquire i =>
    rw [step] at h
    split_ifs at h with hl
    split at h
    · cases h
      exact .enter i _ hl ‹_›
    · cases h
      exact .again i _ _ hl ‹_›
    · cases h
  | look i =>
    rw [step] at h
    split at h
    · split at h
      · cases h
        exact .hit i _ _ ‹_› ‹_›
      · cases h
        exact .miss i _ ‹_› ‹_›
    · cases h
  | answer i channel =>
    unfold step at h
    dsimp only at h
    split at h
    · split_ifs at h with hac
      · cases h
        exact .made i _ _ ‹_› hac
      · cases h
        exact .received i _ _ ‹_› (Bool.eq_false_iff.2 hac)
    · cases h
      exact .refused i _ ‹_›
    · cases h
  | store i =>
    rw [step] at h
    split at h
    · cases h
      exact .stored i _ _ ‹_›
    · cases h
  | drop i =>
    rw [step] at h
    split at h
    · cases h
    · cases h
    · cases h
    · cases h
    · cases h
      exact .dropped i _ ‹_›

/-! ### The lock -/

/-- Who is there has the lock. -/
def Pc.holds (across : Bool) : Pc → Bool
  | .looking _ | .storing _ _ => true
  | .connecting _ => across
  | _ => false

/-- The lock is with the one caller that is at a place where it is held. -/
def Locked (across : Bool) (s : Cache) : Prop := ∀ j, s.lock = some j ↔ ∃ p, s.pc j = some p ∧ p.holds across = true

section

variable {across : Bool} {s : Cache} {i : ℕ} {p q : Pc}

theorem pc_release (s : Cache) (i j : ℕ) : (s.release i).pc j = s.pc j := rfl

/-- A caller goes on to where the lock is not held, and gives it back if it has it. -/
theorem Locked.release_goes (hl : Locked across s) (h : s.pc i = some p) (hq : q.holds across = false) :
    Locked across ((s.release i).goes i q) := by
  intro j
  have hpc := @pc_goes (s.release i) i j q p h
  rw [hpc, pc_release]
  show (if s.lock = some i then none else s.lock) = some j ↔ _
  by_cases hij : j = i
  · subst hij
    rw [if_pos rfl]
    constructor
    · intro hlock
      split_ifs at hlock with hs
      exact absurd hlock hs
    · rintro ⟨p', ⟨⟩, hp'⟩
      rw [hq] at hp'
      cases hp'
  · rw [if_neg hij, ← hl j]
    split_ifs with hs
    · rw [hs]
      exact ⟨nofun, fun heq => absurd (Option.some.inj heq).symm hij⟩
    · rfl

/-- A caller goes on to where the lock is held as where it comes from. -/
theorem Locked.goes (hl : Locked across s) (h : s.pc i = some p) (hq : q.holds across = p.holds across) :
    Locked across (s.goes i q) := by
  intro j
  rw [pc_goes h]
  show s.lock = some j ↔ _
  rw [hl j]
  by_cases hij : j = i
  · subst hij
    rw [if_pos rfl, h]
    simp [hq]
  · rw [if_neg hij]

/-- A caller takes the lock. -/
theorem Locked.acquire (hl : Locked across s) (h : s.pc i = some p) (hnone : s.lock = none)
    (hq : q.holds across = true) : Locked across { s.goes i q with lock := some i } := by
  intro j
  have hpc := @pc_goes s i j q p h
  show some i = some j ↔ ∃ p', (s.goes i q).pc j = some p' ∧ p'.holds across = true
  rw [hpc]
  by_cases hij : j = i
  · subst hij
    rw [if_pos rfl]
    exact ⟨fun _ => ⟨q, rfl, hq⟩, fun _ => rfl⟩
  · rw [if_neg hij, ← hl j, hnone]
    exact ⟨fun heq => absurd (Option.some.inj heq).symm hij, nofun⟩

theorem Locked.call (hl : Locked across s) (a : Text) : Locked across { s with callers := s.callers ++ [.waiting a] } := by
  intro j
  show s.lock = some j ↔ _
  rw [hl j]
  constructor
  · rintro ⟨p, hp, hholds⟩
    exact ⟨p, pc_call hp, hholds⟩
  · rintro ⟨p, hp, hholds⟩
    rcases pc_of_call hp with hp | ⟨-, rfl⟩
    · exact ⟨p, hp, hholds⟩
    · cases hholds

theorem locked_step {s' : Cache} {l : Label} (hl : Locked across s) (h : step across s l = some s') :
    Locked across s' := by
  cases moves_of_step h with
  | call a => exact hl.call a
  | enter i a hnone hi => exact hl.acquire hi hnone rfl
  | again i a ch hnone hi => exact hl.acquire hi hnone rfl
  | hit i a ch hi hc => exact hl.release_goes hi rfl
  | miss i a hi hc =>
    cases across with
    | true => exact hl.goes hi rfl
    | false => exact hl.release_goes hi rfl
  | made i a ch hi hac => exact hl.release_goes hi rfl
  | received i a ch hi hac => exact hl.goes hi hac.symm
  | refused i a hi => exact hl.release_goes hi rfl
  | stored i a ch hi => exact hl.release_goes hi rfl
  | dropped i p hi => exact hl.release_goes hi rfl

end

/-! ### The caches -/

/-- What a caller of the forwarder knows: that nothing is cached while it connects, and that its channel is the cached one.
None is ever left to be stored. -/
def Pc.Fits (map : List (Text × ℕ)) : Pc → Prop
  | .connecting a => map.lookup a = none
  | .done a ch => map.lookup a = some ch
  | .connected _ _ | .storing _ _ => False
  | _ => True

/-- The state of the forwarder. -/
structure ForwardInv (s : Cache) : Prop where
  locked : Locked true s
  fits : ∀ i p, s.pc i = some p → p.Fits s.map

/-- The state of the node client. -/
structure NodeInv (s : Cache) : Prop where
  locked : Locked false s
  cached : Cached s

theorem locked_start (across : Bool) : Locked across start := fun _ => ⟨nofun, nofun⟩

theorem forwardInv_start : ForwardInv start := ⟨locked_start true, nofun⟩

theorem nodeInv_start : NodeInv start := ⟨locked_start false, nofun⟩

section

variable {s : Cache} {i j : ℕ} {p q r : Pc}

/-- Where a caller is behind the step of another one, or of its own. -/
theorem pc_of_goes (h : s.pc i = some q) (hj : (s.goes i p).pc j = some r) : r = p ∨ s.pc j = some r ∧ j ≠ i := by
  rw [pc_goes h] at hj
  split_ifs at hj with hij
  · exact .inl (Option.some.inj hj).symm
  · exact .inr ⟨hj, hij⟩

theorem fits_goes {map : List (Text × ℕ)} (hs : ∀ i p, s.pc i = some p → p.Fits map) (h : s.pc i = some q)
    (hp : p.Fits map) (hj : (s.goes i p).pc j = some r) : r.Fits map := by
  rcases pc_of_goes h hj with rfl | ⟨hj, -⟩
  · exact hp
  · exact hs j r hj

/-- Two callers are not both where the lock is held. -/
theorem Locked.eq {across : Bool} (hl : Locked across s) (hi : s.pc i = some p) (hp : p.holds across = true)
    (hj : s.pc j = some q) (hq : q.holds across = true) : i = j := by
  have hlock : s.lock = some i := (hl i).2 ⟨p, hi, hp⟩
  rw [(hl j).2 ⟨q, hj, hq⟩] at hlock
  exact (Option.some.inj hlock).symm

end

/-- A new channel is the first for its endpoint. -/
theorem fits_made {s : Cache} {i j : ℕ} {a : Text} {ch : ℕ} {r : Pc} (hs : ForwardInv s) (h : s.pc i = some (.connecting a))
    (hj : (s.goes i (.done a ch)).pc j = some r) : r.Fits (put a ch s.map) := by
  rcases pc_of_goes h hj with rfl | ⟨hj, hne⟩
  · show (put a ch s.map).lookup a = some ch
    rw [lookup_put, if_pos rfl]
  · have hfits := hs.fits j r hj
    cases r with
    | connecting b => exact absurd (hs.locked.eq hj rfl h rfl) hne
    | done b ch' =>
      change s.map.lookup b = some ch' at hfits
      show (put a ch s.map).lookup b = some ch'
      have hba : b ≠ a := by
        rintro rfl
        cases hfits.symm.trans (hs.fits i _ h)
      rw [lookup_put, if_neg hba, hfits]
    | connected b ch' => exact hfits
    | storing b ch' => exact hfits
    | _ => trivial

theorem forwardInv_step {s s' : Cache} {l : Label} (hs : ForwardInv s) (h : step true s l = some s') : ForwardInv s' := by
  refine ⟨locked_step hs.locked h, ?_⟩
  cases moves_of_step h with
  | call a =>
    intro j p hj
    rcases pc_of_call hj with hj | ⟨-, rfl⟩
    · exact hs.fits j p hj
    · trivial
  | enter i a hnone hi => exact fun j p => fits_goes hs.fits hi trivial
  | again i a ch hnone hi => exact (hs.fits i _ hi).elim
  | hit i a ch hi hc => exact fun j p => @fits_goes (s.release i) _ _ _ _ _ _ hs.fits hi hc
  | miss i a hi hc => exact fun j p => fits_goes hs.fits hi hc
  | made i a ch hi hac => exact fun j p hj => @fits_made s i j a ch p hs hi hj
  | received i a ch hi hac => cases hac
  | refused i a hi => exact fun j p => @fits_goes (s.release i) _ _ _ _ _ _ hs.fits hi trivial
  | stored i a ch hi => exact (hs.fits i _ hi).elim
  | dropped i p hi => exact fun j p => @fits_goes (s.release i) _ _ _ _ _ _ hs.fits hi trivial

theorem nodeInv_step {s s' : Cache} {l : Label} (hs : NodeInv s) (h : step false s l = some s') : NodeInv s' := by
  refine ⟨locked_step hs.locked h, ?_⟩
  have hkeep : ∀ {i : ℕ} {p q : Pc}, s.pc i = some q → (∀ b ch', p = .done b ch' → (s.map.lookup b).isSome) →
      Cached (s.goes i p) := by
    intro i p q hi hp j b ch' hj
    rcases pc_of_goes hi hj with heq | ⟨hj, -⟩
    · exact hp b ch' heq.symm
    · exact hs.cached j b ch' hj
  cases moves_of_step h with
  | call a =>
    intro j b ch' hj
    rcases pc_of_call hj with hj | ⟨-, heq⟩
    · exact hs.cached j b ch' hj
    · cases heq
  | enter i a hnone hi => exact hkeep hi nofun
  | again i a ch hnone hi => exact hkeep hi nofun
  | hit i a ch hi hc =>
    refine hkeep hi ?_
    rintro b ch' ⟨⟩
    rw [hc]
    rfl
  | miss i a hi hc => exact hkeep hi nofun
  | made i a ch hi hac => cases hac
  | received i a ch hi hac => exact hkeep hi nofun
  | refused i a hi => exact hkeep hi nofun
  | stored i a ch hi =>
    intro j b ch' hj
    have hj' : (s.goes i (.done a ch)).pc j = some (.done b ch') := hj
    rcases pc_of_goes hi hj' with heq | ⟨hj', -⟩
    · cases heq
      show ((put a ch s.map).lookup a).isSome
      rw [lookup_put, if_pos rfl]
      rfl
    · exact isSome_lookup_put (hs.cached j b ch' hj')
  | dropped i p hi => exact hkeep hi nofun

/-- A failed connect, and a caller that goes, leave a cache as it is. -/
theorem map_of_answer_none {across : Bool} {s s' : Cache} {i : ℕ} (h : step across s (.answer i none) = some s') :
    s'.map = s.map := by
  cases moves_of_step h with
  | refused i a hi => rfl

/-! ### Who can go on -/

/-- A caller that finds the lock free, and a channel, is done in two steps. -/
theorem finishes {across : Bool} {s : Cache} {i : ℕ} {a : Text} {ch : ℕ} (hnone : s.lock = none)
    (h : s.pc i = some (.waiting a)) (hc : s.map.lookup a = some ch) :
    ∃ t, Runs.run (step across) s [.acquire i, .look i] = some t ∧ t.pc i = some (.done a ch) := by
  obtain ⟨u, hu⟩ : ∃ u : Cache, u = { s.goes i (.looking a) with lock := some i } := ⟨_, rfl⟩
  have hfirst : step across s (.acquire i) = some u := by
    rw [step, if_pos hnone, h, hu]
  have hpc : u.pc i = some (.looking a) := by
    rw [hu]
    exact (pc_goes h).trans (if_pos rfl)
  have hmap : u.map = s.map := by rw [hu]; rfl
  have hsecond : step across u (.look i) = some ((u.release i).goes i (.done a ch)) := by
    simp only [step, hpc, hmap, hc]
  refine ⟨(u.release i).goes i (.done a ch), ?_, ?_⟩
  · rw [Runs.run_cons]
    exact ⟨u, hfirst, by rw [Runs.run_cons]; exact ⟨_, hsecond, rfl⟩⟩
  · have hgoes := @pc_goes (u.release i) i i (.done a ch) _ hpc
    rw [hgoes, if_pos rfl]

/-- A caller that has the lock, and need not connect with it, gives it back in one step. -/
theorem gives_back {across : Bool} {s : Cache} {i j : ℕ} {a b : Text} (hi : s.pc i = some (.waiting a))
    (hc : (s.map.lookup a).isSome) (hlock : s.lock = some j) (hj : s.pc j = some (.looking b))
    (hb : across = false ∨ (s.map.lookup b).isSome) :
    ∃ t, step across s (.look j) = some t ∧ t.lock = none ∧ t.pc i = some (.waiting a) ∧ (t.map.lookup a).isSome := by
  have hne : i ≠ j := by
    rintro rfl
    cases hi.symm.trans hj
  have hpc : ∀ q : Pc, ((s.release j).goes j q).pc i = some (.waiting a) := by
    intro q
    have hgoes := @pc_goes (s.release j) j i q _ hj
    rw [hgoes, if_neg hne, pc_release, hi]
  have hfree : (s.release j).lock = none := if_pos hlock
  cases hlook : s.map.lookup b with
  | some ch =>
    refine ⟨(s.release j).goes j (.done b ch), ?_, hfree, hpc _, hc⟩
    simp only [step, hj, hlook]
  | none =>
    rw [hlook] at hb
    obtain rfl := hb.resolve_right nofun
    refine ⟨(s.release j).goes j (.connecting b), ?_, hfree, hpc _, hc⟩
    simp only [step, hj, hlook, Bool.false_eq_true, if_false]

/-- A caller that stores its channel gives the lock back with it. -/
theorem stores {across : Bool} {s : Cache} {i j : ℕ} {a b : Text} {ch : ℕ} (hi : s.pc i = some (.waiting a))
    (hc : (s.map.lookup a).isSome) (hlock : s.lock = some j) (hj : s.pc j = some (.storing b ch)) :
    ∃ t, step across s (.store j) = some t ∧ t.lock = none ∧ t.pc i = some (.waiting a) ∧ (t.map.lookup a).isSome := by
  have hne : i ≠ j := by
    rintro rfl
    cases hi.symm.trans hj
  refine ⟨{ (s.release j).goes j (.done b ch) with map := put b ch s.map }, ?_, if_pos hlock, ?_, isSome_lookup_put hc⟩
  · simp only [step, hj]
  · have hgoes := @pc_goes (s.release j) j i (.done b ch) _ hj
    show ((s.release j).goes j (.done b ch)).pc i = _
    rw [hgoes, if_neg hne, pc_release, hi]

theorem local_pair (i : ℕ) : ∀ l ∈ [Label.acquire i, .look i], l.Local := by
  intro l hl
  rcases List.mem_cons.1 hl with rfl | hl
  · trivial
  · rw [List.mem_singleton.1 hl]
    trivial

/-- Behind one step that frees the lock, a forward to a cached peer goes on. -/
theorem proceeds_behind {across : Bool} {s t : Cache} {i : ℕ} {a : Text} {l : Label} (hlocal : l.Local)
    (hstep : step across s l = some t) (hnone : t.lock = none) (hi : t.pc i = some (.waiting a))
    (hc : (t.map.lookup a).isSome) :
    ∃ ls u ch, (∀ l ∈ ls, l.Local) ∧ Runs.run (step across) s ls = some u ∧ u.pc i = some (.done a ch) := by
  obtain ⟨ch, hch⟩ := Option.isSome_iff_exists.1 hc
  obtain ⟨u, hu, hdone⟩ := finishes hnone hi hch
  refine ⟨l :: [.acquire i, .look i], u, ch, ?_, Runs.run_cons.2 ⟨t, hstep, hu⟩, hdone⟩
  intro l' hl'
  rcases List.mem_cons.1 hl' with rfl | hl'
  · exact hlocal
  · exact local_pair i l' hl'

/-- A forward is stuck behind another caller that has to connect with the lock in its hand. -/
structure Stuck (s : Cache) (i j : ℕ) : Prop where
  lock : s.lock = some j
  waits : ∃ a, s.pc i = some (.waiting a)
  connects : ∃ b, (s.pc j = some (.looking b) ∨ s.pc j = some (.connecting b)) ∧ s.map.lookup b = none

/-- Nothing but an answer of the network, or the other's going, helps it. -/
theorem Stuck.step {s s' : Cache} {i j : ℕ} {l : Label} (h : Stuck s i j) (hs : ForwardInv s) (hl : l.Local)
    (hstep : step true s l = some s') : Stuck s' i j := by
  obtain ⟨hlock, ⟨a, ha⟩, b, hb, hnone⟩ := h
  have hholds : ∃ p, s.pc j = some p ∧ p.holds true = true := (hs.locked j).1 hlock
  cases moves_of_step hstep with
  | call c =>
    refine ⟨hlock, ⟨a, pc_call ha⟩, b, ?_, hnone⟩
    rcases hb with hb | hb
    · exact .inl (pc_call hb)
    · exact .inr (pc_call hb)
  | enter k c hfree hk => cases hlock.symm.trans hfree
  | again k c ch hfree hk => cases hlock.symm.trans hfree
  | hit k c ch hk hc =>
    obtain ⟨p, hp, hpholds⟩ := hholds
    obtain rfl := hs.locked.eq hk rfl hp hpholds
    rcases hb with hb | hb
    · cases hb.symm.trans hk
      cases hc.symm.trans hnone
    · cases hb.symm.trans hk
  | miss k c hk hc =>
    obtain ⟨p, hp, hpholds⟩ := hholds
    obtain rfl := hs.locked.eq hk rfl hp hpholds
    have hne : i ≠ k := by
      rintro rfl
      cases ha.symm.trans hk
    refine ⟨hlock, ⟨a, ?_⟩, c, .inr ?_, hc⟩
    · show (s.goes k (.connecting c)).pc i = _
      rw [pc_goes hk, if_neg hne, ha]
    · show (s.goes k (.connecting c)).pc k = _
      rw [pc_goes hk, if_pos rfl]
  | stored k c ch hk => exact (hs.fits k _ hk).elim
  | made k c ch hk hac => exact hl.elim
  | received k c ch hk hac => exact hl.elim
  | refused k c hk => exact hl.elim
  | dropped k p hk => exact hl.elim

theorem Stuck.run {s t : Cache} {i j : ℕ} {ls : List Label} (h : Stuck s i j) (hs : ForwardInv s)
    (hl : ∀ l ∈ ls, l.Local) (hrun : Runs.run (ChannelCache.step true) s ls = some t) : Stuck t i j := by
  induction ls generalizing s with
  | nil =>
    cases hrun
    exact h
  | cons l ls ih =>
    obtain ⟨u, hu, hrun⟩ := Runs.run_cons.1 hrun
    exact ih (h.step hs (hl l List.mem_cons_self) hu) (forwardInv_step hs hu) (fun k hk => hl k (List.mem_cons_of_mem _ hk))
      hrun

/-- Where a forward to a cached peer waits, nobody has the lock that must connect with it. -/
def Going (s : Cache) : Prop := ∀ i a, s.pc i = some (.waiting a) → (s.map.lookup a).isSome → Free s

/-- **Who can go on**: each forward to a cached peer exactly where nobody has the lock that must connect with it. -/
theorem proceeds_iff {s : Cache} (hs : ForwardInv s) : Proceeds true s ↔ Going s := by
  constructor
  · intro h i a hi hc j hlock
    obtain ⟨p, hp, hholds⟩ := (hs.locked j).1 hlock
    have hstuck : ∀ b, (s.pc j = some (.looking b) ∨ s.pc j = some (.connecting b)) → s.map.lookup b ≠ none := by
      intro b hb hnone
      obtain ⟨ls, t, ch, hlocal, hrun, hdone⟩ := h i a hi hc
      have ht := Stuck.run ⟨hlock, ⟨a, hi⟩, b, hb, hnone⟩ hs hlocal hrun
      obtain ⟨a', ha'⟩ := ht.waits
      cases ha'.symm.trans hdone
    cases p with
    | looking b => exact ⟨b, hp, Option.isSome_iff_ne_none.2 (hstuck b (.inl hp))⟩
    | connecting b => exact absurd (hs.fits j _ hp) (hstuck b (.inr hp))
    | storing b ch => exact (hs.fits j _ hp).elim
    | _ => cases hholds
  · intro h i a hi hc
    have hfree := h i a hi hc
    cases hlock : s.lock with
    | none =>
      obtain ⟨ch, hch⟩ := Option.isSome_iff_exists.1 hc
      obtain ⟨t, ht, hdone⟩ := finishes hlock hi hch
      exact ⟨_, t, ch, local_pair i, ht, hdone⟩
    | some j =>
      obtain ⟨b, hj, hb⟩ := hfree j hlock
      obtain ⟨t, ht, hnone, hpc, hcached⟩ := gives_back hi hc hlock hj (.inr hb)
      exact @proceeds_behind true s t i a (.look j) trivial ht hnone hpc hcached

/-- A forward of the node client can always go on. -/
theorem node_proceeds {s : Cache} (hs : NodeInv s) : Proceeds false s := by
  intro i a hi hc
  cases hlock : s.lock with
  | none =>
    obtain ⟨ch, hch⟩ := Option.isSome_iff_exists.1 hc
    obtain ⟨t, ht, hdone⟩ := finishes hlock hi hch
    exact ⟨_, t, ch, local_pair i, ht, hdone⟩
  | some j =>
    obtain ⟨p, hp, hholds⟩ := (hs.locked j).1 hlock
    cases p with
    | looking b =>
      obtain ⟨t, ht, hnone, hpc, hcached⟩ := gives_back hi hc hlock hp (.inl rfl)
      exact @proceeds_behind false s t i a (.look j) trivial ht hnone hpc hcached
    | storing b ch =>
      obtain ⟨t, ht, hnone, hpc, hcached⟩ := stores hi hc hlock hp
      exact @proceeds_behind false s t i a (.store j) trivial ht hnone hpc hcached
    | _ => cases hholds

/-! ### Runs -/

/-- No forward to a cached peer waits. -/
def NoneWaits (s : Cache) : Prop := ∀ i a, s.pc i = some (.waiting a) → s.map.lookup a = none

/-- No forward to a peer that is not cached takes the lock while one to a cached peer waits, and none to a cached peer is made
while one to such a peer has the lock. -/
def Good (s : Cache) : Label → Prop
  | .acquire i => ∀ b, s.pc i = some (.waiting b) → s.map.lookup b = none → NoneWaits s
  | .call a => (s.map.lookup a).isSome → Free s
  | _ => True

theorem Free.of_none {s : Cache} (h : s.lock = none) : Free s := by
  intro j hj
  rw [h] at hj
  cases hj

/-- A caller that has the lock frees it where it goes on without it. -/
theorem lock_release {across : Bool} {s : Cache} {i : ℕ} {p : Pc} (hl : Locked across s) (h : s.pc i = some p)
    (hp : p.holds across = true) : (s.release i).lock = none := if_pos ((hl i).2 ⟨p, h, hp⟩)

theorem free_call {s : Cache} (hl : Locked true s) (a : Text) :
    Free { s with callers := s.callers ++ [.waiting a] } ↔ Free s := by
  refine ⟨fun h j hj => ?_, fun h j hj => ?_⟩
  · obtain ⟨b, hb, hc⟩ := h j hj
    obtain ⟨p, hp, -⟩ := (hl j).1 hj
    obtain rfl : p = .looking b := Option.some.inj ((pc_call hp).symm.trans hb)
    exact ⟨b, hp, hc⟩
  · obtain ⟨b, hb, hc⟩ := h j hj
    exact ⟨b, pc_call hb, hc⟩

theorem going_step {s s' : Cache} {l : Label} (hs : ForwardInv s) (hgo : Going s) (hgood : Good s l)
    (h : step true s l = some s') : Going s' := by
  cases moves_of_step h with
  | call a =>
    intro i b hi hc
    rw [free_call hs.locked]
    rcases pc_of_call hi with hi | ⟨-, heq⟩
    · exact hgo i b hi hc
    · cases heq
      exact hgood hc
  | enter k b hnone hk =>
    intro i a hi hc j hj
    obtain rfl : k = j := Option.some.inj hj
    refine ⟨b, (pc_goes hk).trans (if_pos rfl), ?_⟩
    by_contra hmiss
    have hnone' := hgood b hk (Option.not_isSome_iff_eq_none.1 hmiss)
    rcases pc_of_goes hk hi with heq | ⟨hi, -⟩
    · cases heq
    · change (s.map.lookup a).isSome at hc
      rw [hnone' i a hi] at hc
      cases hc
  | again k b ch hnone hk => exact (hs.fits k _ hk).elim
  | hit k b ch hk hc => exact fun _ _ _ _ => .of_none (lock_release hs.locked hk rfl)
  | miss k b hk hc =>
    intro i a hi hca
    rcases pc_of_goes hk hi with heq | ⟨hi, -⟩
    · cases heq
    · obtain ⟨b', hb', hcached⟩ := hgo i a hi hca k ((hs.locked k).2 ⟨_, hk, rfl⟩)
      cases hk.symm.trans hb'
      rw [hc] at hcached
      cases hcached
  | made k b ch hk hac => exact fun _ _ _ _ => .of_none (lock_release hs.locked hk rfl)
  | received k b ch hk hac => cases hac
  | refused k b hk => exact fun _ _ _ _ => .of_none (lock_release hs.locked hk rfl)
  | stored k b ch hk => exact (hs.fits k _ hk).elim
  | dropped k p hk =>
    intro i a hi hc j hj
    have hrel := @pc_goes (s.release k) k
    have hlock : s.lock ≠ some k := by
      intro hlock
      have hnone : (s.release k).lock = none := if_pos hlock
      change j ∈ (s.release k).lock at hj
      rw [hnone] at hj
      cases hj
    have hj' : s.lock = some j := by
      have hsame : (s.release k).lock = s.lock := if_neg hlock
      exact hsame.symm.trans hj
    have hjk : j ≠ k := by
      rintro rfl
      exact hlock hj'
    rcases @pc_of_goes (s.release k) k i .dropped p (.waiting a) hk hi with heq | ⟨hi', -⟩
    · cases heq
    · obtain ⟨b, hb, hcached⟩ := hgo i a hi' hc j hj'
      exact ⟨b, (hrel hk).trans (by rw [if_neg hjk]; exact hb), hcached⟩

/-- A step that is not good leaves a forward to a cached peer behind one that must connect. -/
theorem not_going_of_not_good {s s' : Cache} {l : Label} (hs : ForwardInv s) (hbad : ¬Good s l)
    (h : step true s l = some s') : ¬Going s' := by
  cases moves_of_step h with
  | call a =>
    intro hgo
    refine hbad fun hc => ?_
    have hnew : Cache.pc { s with callers := s.callers ++ [.waiting a] } s.callers.length = some (.waiting a) := by
      rw [Cache.pc, List.getElem?_append_right (Nat.le_refl _), Nat.sub_self]
      rfl
    exact (free_call hs.locked a).1 (hgo _ a hnew hc)
  | enter k b hnone hk =>
    intro hgo
    refine hbad fun b' hk' hmiss i a hi => ?_
    cases hk.symm.trans hk'
    by_contra hc
    have hik : i ≠ k := by
      rintro rfl
      cases hi.symm.trans hk
      exact hc hmiss
    have hi' : (s.goes k (.looking b)).pc i = some (.waiting a) := by rw [pc_goes hk, if_neg hik, hi]
    obtain ⟨b', hb', hcached⟩ := hgo i a hi' (Option.isSome_iff_ne_none.2 hc) k rfl
    have hlook : (s.goes k (.looking b)).pc k = some (.looking b) := (pc_goes hk).trans (if_pos rfl)
    cases hlook.symm.trans hb'
    change (s.map.lookup b).isSome at hcached
    rw [hmiss] at hcached
    cases hcached
  | again k b ch hnone hk => exact (hs.fits k _ hk).elim
  | _ => exact absurd trivial hbad

/-- **No blocking between peers**: in every state of a run of the forwarder each forward to a cached peer can go on without
an answer of the network exactly where the run is good; with the node client it always can. Every channel that the forwarder
gives out is the one that is cached for its endpoint, the node client has one cached for each that it gave out, and a connect
that fails leaves both caches as they were. -/
theorem no_blocking_iff (ls : List Label) :
    (Runs.Always forwarderClient (Proceeds true) start ls ↔ Runs.Careful forwarderClient Good start ls) ∧
      Runs.Always nodeClient (Proceeds false) start ls ∧ Runs.Always forwarderClient OneChannel start ls ∧
      Runs.Always nodeClient Cached start ls ∧
      ∀ across s s' i, step across s (.answer i none) = some s' → s'.map = s.map := by
  have hgood : ∀ ks, Runs.Careful nodeClient (fun _ _ => True) start ks := fun _ => Runs.careful_of_forall fun _ _ _ => trivial
  have hgood' : ∀ ks, Runs.Careful forwarderClient (fun _ _ => True) start ks :=
    fun _ => Runs.careful_of_forall fun _ _ _ => trivial
  refine ⟨?_, ?_, ?_, ?_, fun _ _ _ _ => map_of_answer_none⟩
  · refine Runs.always_iff_careful (I := fun s => ForwardInv s ∧ Going s) ?_ ?_ ?_ ⟨forwardInv_start, nofun⟩
    · exact fun s l s' hs hgood h => ⟨forwardInv_step hs.1 h, going_step hs.1 hs.2 hgood h⟩
    · exact fun s hs => (proceeds_iff hs.1).2 hs.2
    · exact fun s l s' hs hbad h hp => not_going_of_not_good hs.1 hbad h ((proceeds_iff (forwardInv_step hs.1 h)).1 hp)
  · exact Runs.always_of_careful (fun _ _ _ hs _ h => nodeInv_step hs h) (fun _ => node_proceeds) nodeInv_start (hgood ls)
  · exact Runs.always_of_careful (fun _ _ _ hs _ h => forwardInv_step hs h) (fun _ hs i a ch hi => hs.fits i _ hi)
      forwardInv_start (hgood' ls)
  · exact Runs.always_of_careful (fun _ _ _ hs _ h => nodeInv_step hs h) (fun _ hs => hs.cached) nodeInv_start (hgood ls)

/-- A peer that is cached, one that does not answer, and a forward to the first. -/
def slowPeer : List Label :=
  [.call "http://a".toList, .acquire 0, .look 0, .answer 0 (some 1), .call "http://b".toList, .acquire 1, .look 1,
    .call "http://a".toList]

/-- The forward to the cached peer waits for the other one's connect. -/
theorem slow_peer_blocks : ¬Runs.Always forwarderClient (Proceeds true) start slowPeer := by
  intro h
  have hrun : Runs.run forwarderClient start slowPeer =
      some ⟨some 1, [("http://a".toList, 1)],
        [.done "http://a".toList 1, .connecting "http://b".toList, .waiting "http://a".toList]⟩ := by decide +kernel
  have hinv : ForwardInv _ := Runs.run_invariant (fun _ _ _ => forwardInv_step) forwardInv_start hrun
  obtain ⟨b, hb, -⟩ := (proceeds_iff hinv).1 (h.last hrun) 2 _ rfl rfl 1 rfl
  cases hb

end ChannelCache

end Latiq.PondNode
