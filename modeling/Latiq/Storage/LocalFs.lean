import Latiq.Library.RustStr
import Latiq.Library.Runs

/-!
# The directories of a pond

`LocalFs` keeps a pond under `<root>/<pond-id>`: its `data`, its `lineage` where the pond opted into it, and what its
operations write there. `ensure_pond` looks whether the directory is there, and creates what is missing by one system call
after another; any number of calls for one pond run at once, and each step of each may fail. A question of `exists` that
fails is answered with no.

## What is proved

* `dirs_le_of_run` — no step removes anything, or resets what an operation has written.
* `next_isSome`, `rank_next` — a call that has not ended can take a step, and takes nine at most.
* `ensured` — in a run in which no call finds the directory without its `data`, and none finds it there when it is about
  to create it, every call ends with the pond's whole layout, or has failed at a step of its own.
* `not_ensured` — the two runs that are not so.
-/

namespace Latiq.Storage

open RustStr (Text)

/-- `StorageError`. -/
inductive StorageError where
  | alreadyExists (pondId : Text)
  | notFound (pondId : Text)
  | io
  deriving DecidableEq, Repr

/-- `PondLocation`, as the storage hands it out. -/
structure PondLocation where
  catalogUri : Text
  dataPath : Text
  catalogName : Text
  lineageDir : Text
  deriving DecidableEq, Repr

namespace LocalFs

/-- `Path::join`, of a relative path. -/
def join (path name : Text) : Text := if path = [] ∨ path.getLast? = some '/' then path ++ name else path ++ '/' :: name

/-- `location_for`: the one location of a pond. -/
def locationFor (root pondId : Text) : PondLocation :=
  let dir := join root pondId
  ⟨"ducklake:duckdb:".toList ++ join dir "catalog.duckdb".toList, join dir "data".toList, "pond".toList,
    join dir "lineage".toList⟩

/-! ### Directories -/

/-- What is in a pond's directory. -/
inductive Dir where
  | data | lineage
  deriving DecidableEq, Repr

/-- The directory of a pond, what is in it, and what its operations have written there. -/
structure Dirs where
  pond : Bool
  data : Bool
  lineage : Bool
  written : List ℕ
  deriving DecidableEq, Repr

namespace Dirs

def has (d : Dirs) : Dir → Bool
  | .data => d.data
  | .lineage => d.lineage

def put (d : Dirs) : Dir → Dirs
  | .data => { d with data := true }
  | .lineage => { d with lineage := true }

/-- Nothing is gone. -/
structure Le (d d' : Dirs) : Prop where
  pond : d.pond = true → d'.pond = true
  has : ∀ x, d.has x = true → d'.has x = true
  written : d.written <+: d'.written

/-- The layout of a pond is whole. -/
structure Whole (d : Dirs) (lineage : Bool) : Prop where
  pond : d.pond = true
  data : d.data = true
  lineage : lineage = true → d.lineage = true

end Dirs

/-! ### Calls -/

/-- Where a call of `ensure_pond` is. -/
inductive Pc where
  /-- `ensure_pond` asks whether the pond is there. -/
  | ensure
  /-- `create_pond` asks again. -/
  | create
  /-- `create_dir_all` makes a directory; `again` behind its parent's. -/
  | mkdir (dir : Dir) (again : Bool)
  /-- `create_dir_all` makes the pond's directory, which the other one is in. -/
  | mkParent (dir : Dir)
  /-- `create_lineage_dir` asks whether its directory is there. -/
  | createLineage
  | ended (r : Except StorageError PondLocation)
  deriving DecidableEq

/-- A call, with the pond's opt-in into lineage, and whether one of its steps has failed. -/
structure Call where
  lineage : Bool
  pc : Pc
  failed : Bool
  deriving DecidableEq

section

variable (root pondId : Text)

/-- The call ends well. -/
def finished : Pc := .ended (.ok (locationFor root pondId))

/-- Behind a directory that is there. -/
def behind (lineage : Bool) : Dir → Pc
  | .data => if lineage then .createLineage else finished root pondId
  | .lineage => finished root pondId

/-- One step of a call, which `fails` or does not. -/
def next (d : Dirs) (fails : Bool) (c : Call) : Option (Pc × Dirs) :=
  match c.pc with
  | .ensure =>
    if d.pond && !fails then some (if c.lineage then .createLineage else finished root pondId, d) else some (.create, d)
  | .create => if d.pond && !fails then some (.ended (.error (.alreadyExists pondId)), d) else some (.mkdir .data false, d)
  | .mkdir x again =>
    -- a directory that is there is as good as a new one
    if d.has x then some (behind root pondId c.lineage x, d)
    else if fails then some (.ended (.error .io), d)
    else if d.pond then some (behind root pondId c.lineage x, d.put x)
    else if again then some (.ended (.error .io), d)
    else some (.mkParent x, d)
  | .mkParent x =>
    if d.pond then some (.mkdir x true, d)
    else if fails then some (.ended (.error .io), d)
    else some (.mkdir x true, { d with pond := true })
  | .createLineage => if d.lineage && !fails then some (finished root pondId, d) else some (.mkdir .lineage false, d)
  | .ended _ => none

/-- The directories, and the calls: each is known by its place in the list. -/
structure Fs where
  dirs : Dirs
  calls : List Call
  deriving DecidableEq

inductive Label where
  /-- A call is made. -/
  | call (lineage : Bool)
  /-- A call takes a step. -/
  | step (i : ℕ) (fails : Bool)
  /-- The operation of a call that has ended well opens the pond, and writes. -/
  | write (i : ℕ) (what : ℕ)
  deriving DecidableEq, Repr

def step (s : Fs) : Label → Option Fs
  | .call lineage => some { s with calls := s.calls ++ [⟨lineage, .ensure, false⟩] }
  | .step i fails =>
    match s.calls[i]? with
    | some c =>
      (next root pondId s.dirs fails c).map fun r => ⟨r.2, s.calls.set i ⟨c.lineage, r.1, c.failed || fails⟩⟩
    | none => none
  | .write i what =>
    match s.calls[i]? with
    | some ⟨_, .ended (.ok _), _⟩ => some { s with dirs.written := s.dirs.written ++ [what] }
    | _ => none

/-- Some directories, before any call. -/
def start (d : Dirs) : Fs := ⟨d, []⟩

/-- A call that has ended has the pond's location and its whole layout, or has failed at a step of its own. -/
def Call.Right (d : Dirs) (c : Call) : Prop :=
  match c.pc with
  | .ended (.ok loc) => loc = locationFor root pondId ∧ d.Whole c.lineage
  | .ended (.error _) => c.failed = true
  | _ => True

/-- Every call that has ended is right. -/
def Ensured (s : Fs) : Prop := ∀ c ∈ s.calls, c.Right root pondId s.dirs

/-- No call finds the directory without its data, and none finds it there when it is about to create it; a question that
fails, or is asked behind one that failed, finds nothing. -/
def Good (s : Fs) : Label → Prop
  | .step i false =>
    ∀ c ∈ s.calls[i]?, (c.pc = .ensure → s.dirs.pond = true → s.dirs.data = true) ∧
      (c.pc = .create → s.dirs.pond = true → c.failed = true)
  | _ => True

end

/-! ### Nothing is removed -/

theorem Dirs.Le.refl (d : Dirs) : d.Le d := ⟨id, fun _ => id, List.prefix_refl _⟩

theorem Dirs.Le.trans {d d' d'' : Dirs} (h : d.Le d') (h' : d'.Le d'') : d.Le d'' :=
  ⟨fun hp => h'.pond (h.pond hp), fun x hx => h'.has x (h.has x hx), h.written.trans h'.written⟩

theorem Dirs.le_put (d : Dirs) (x : Dir) : d.Le (d.put x) := by
  cases x with
  | data => exact ⟨id, fun y hy => by cases y <;> first | rfl | exact hy, List.prefix_refl _⟩
  | lineage => exact ⟨id, fun y hy => by cases y <;> first | rfl | exact hy, List.prefix_refl _⟩

theorem Dirs.le_mkPond (d : Dirs) : d.Le { d with pond := true } :=
  ⟨fun _ => rfl, fun x hx => by cases x <;> exact hx, List.prefix_refl _⟩

theorem Dirs.le_write (d : Dirs) (what : ℕ) : d.Le { d with written := d.written ++ [what] } :=
  ⟨id, fun x hx => by cases x <;> exact hx, List.prefix_append _ _⟩

@[simp] theorem Dirs.has_put (d : Dirs) (x : Dir) : (d.put x).has x = true := by
  cases x <;> rfl

@[simp] theorem Dirs.pond_put (d : Dirs) (x : Dir) : (d.put x).pond = d.pond := by
  cases x <;> rfl

section

variable {root pondId : Text} {d d' : Dirs} {c : Call} {pc : Pc} {fails : Bool}

theorem dirs_le_of_next (h : next root pondId d fails c = some (pc, d')) : d.Le d' := by
  unfold next at h
  split at h
  · split_ifs at h <;> cases h <;> exact .refl d
  · split_ifs at h <;> cases h <;> exact .refl d
  · split_ifs at h
    · cases h
      exact .refl d
    · cases h
      exact .refl d
    · cases h
      exact d.le_put _
    · cases h
      exact .refl d
    · cases h
      exact .refl d
  · split_ifs at h
    · cases h
      exact .refl d
    · cases h
      exact .refl d
    · cases h
      exact d.le_mkPond
  · split_ifs at h <;> cases h <;> exact .refl d
  · cases h

theorem dirs_le_of_step {s s' : Fs} {l : Label} (h : step root pondId s l = some s') : s.dirs.Le s'.dirs := by
  cases l with
  | call lineage =>
    cases h
    exact .refl _
  | step i fails =>
    simp only [step] at h
    split at h
    · obtain ⟨⟨pc, d'⟩, hnext, heq⟩ := Option.map_eq_some_iff.1 h
      cases heq
      exact dirs_le_of_next hnext
    · cases h
  | write i what =>
    simp only [step] at h
    split at h
    · cases h
      exact s.dirs.le_write what
    · cases h

/-- **Nothing is removed**, by any step of any run. -/
theorem dirs_le_of_run {s s' : Fs} {ls : List Label} (h : Runs.run (step root pondId) s ls = some s') :
    s.dirs.Le s'.dirs :=
  Runs.run_invariant (fun _ _ _ hle hstep => Dirs.Le.trans hle (dirs_le_of_step hstep)) (.refl s.dirs) h

end

/-! ### A call ends -/

/-- How many steps a call has before it at most. -/
def Pc.rank : Pc → ℕ
  | .ensure => 9
  | .create => 8
  | .mkdir .data false => 7
  | .mkParent .data => 6
  | .mkdir .data true => 5
  | .createLineage => 4
  | .mkdir .lineage false => 3
  | .mkParent .lineage => 2
  | .mkdir .lineage true => 1
  | .ended _ => 0

section

variable {root pondId : Text} {d d' : Dirs} {c : Call} {pc : Pc} {fails : Bool}

/-- A call that has not ended can take a step. -/
theorem next_isSome (h : ∀ r, c.pc ≠ .ended r) : (next root pondId d fails c).isSome := by
  unfold next
  split
  · split_ifs <;> rfl
  · split_ifs <;> rfl
  · split_ifs <;> rfl
  · split_ifs <;> rfl
  · split_ifs <;> rfl
  · exact absurd ‹_› (h _)

theorem rank_behind (lineage : Bool) : ∀ x again, (behind root pondId lineage x).rank < (Pc.mkdir x again).rank
  | .data, again => by cases lineage <;> cases again <;> simp [behind, finished, Pc.rank]
  | .lineage, again => by cases again <;> simp [behind, finished, Pc.rank]

/-- Each step leaves fewer before it. -/
theorem rank_next (h : next root pondId d fails c = some (pc, d')) : pc.rank < c.pc.rank := by
  unfold next at h
  split at h
  next hpc =>
    rw [hpc]
    split_ifs at h <;> cases h <;> simp [finished, Pc.rank]
  next hpc =>
    rw [hpc]
    split_ifs at h <;> cases h <;> simp [Pc.rank]
  next x again hpc =>
    rw [hpc]
    have hended : (Pc.ended (.error .io)).rank < (Pc.mkdir x again).rank := by
      cases x <;> cases again <;> decide
    split_ifs at h with hthere hfails hpond hagain
    · cases h
      exact rank_behind c.lineage x again
    · cases h
      exact hended
    · cases h
      exact rank_behind c.lineage x again
    · cases h
      exact hended
    · cases h
      cases x <;> cases again <;> first | exact absurd rfl hagain | decide
  next x hpc =>
    rw [hpc]
    split_ifs at h <;> cases h <;> cases x <;> decide
  next hpc =>
    rw [hpc]
    split_ifs at h <;> cases h <;> simp [finished, Pc.rank]
  next => cases h

end

/-! ### The layout -/

/-- What a call has seen to, where it is. -/
def Call.Inv (root pondId : Text) (d : Dirs) (c : Call) : Prop :=
  match c.pc with
  | .ensure | .create | .mkdir .data false | .mkParent .data => True
  | .mkdir .data true => d.pond = true
  | .createLineage | .mkdir .lineage false => d.pond = true ∧ d.data = true
  | .mkdir .lineage true | .mkParent .lineage => False
  | .ended _ => c.Right root pondId d

section

variable {root pondId : Text} {d d' : Dirs} {c : Call} {pc : Pc} {fails : Bool}

theorem Dirs.Whole.mono {lineage : Bool} (h : d.Whole lineage) (hle : d.Le d') : d'.Whole lineage :=
  ⟨hle.pond h.pond, hle.has .data h.data, fun hl => hle.has .lineage (h.lineage hl)⟩

/-- What a call has seen to stays. -/
theorem Call.Inv.mono (h : c.Inv root pondId d) (hle : d.Le d') : c.Inv root pondId d' := by
  obtain ⟨lineage, pc, failed⟩ := c
  cases pc with
  | ensure => trivial
  | create => trivial
  | mkdir x again =>
    cases x with
    | data =>
      cases again with
      | false => trivial
      | true => exact hle.pond h
    | lineage =>
      cases again with
      | false => exact ⟨hle.pond h.1, hle.has .data h.2⟩
      | true => exact h.elim
  | mkParent x =>
    cases x with
    | data => trivial
    | lineage => exact h.elim
  | createLineage => exact ⟨hle.pond h.1, hle.has .data h.2⟩
  | ended r =>
    cases r with
    | error e => exact h
    | ok loc => exact ⟨h.1, h.2.mono hle⟩

/-- Behind the data, there is the lineage to see to, or nothing. -/
theorem inv_behind_data {lineage failed : Bool} (hp : d.pond = true) (hd : d.data = true) :
    Call.Inv root pondId d ⟨lineage, behind root pondId lineage .data, failed⟩ := by
  cases lineage with
  | true => exact ⟨hp, hd⟩
  | false => exact ⟨rfl, hp, hd, nofun⟩

theorem inv_finished {lineage failed : Bool} (hp : d.pond = true) (hd : d.data = true) (hl : d.lineage = true) :
    Call.Inv root pondId d ⟨lineage, finished root pondId, failed⟩ := ⟨rfl, hp, hd, fun _ => hl⟩

/-- A step leaves the call with what it must have seen to. -/
theorem inv_next (hinv : c.Inv root pondId d) (hdir : d.data = true → d.pond = true)
    (hensure : fails = false → c.pc = .ensure → d.pond = true → d.data = true)
    (hcreate : fails = false → c.pc = .create → d.pond = true → c.failed = true)
    (h : next root pondId d fails c = some (pc, d')) :
    Call.Inv root pondId d' ⟨c.lineage, pc, c.failed || fails⟩ := by
  obtain ⟨lineage, cpc, failed⟩ := c
  cases cpc with
  | ensure =>
    simp only [next] at h
    by_cases hfound : (d.pond && !fails) = true
    · obtain ⟨hp, hf⟩ := Bool.and_eq_true_iff.1 hfound
      rw [if_pos hfound] at h
      cases h
      exact inv_behind_data hp (hensure (by simpa using hf) rfl hp)
    · rw [if_neg hfound] at h
      cases h
      trivial
  | create =>
    simp only [next] at h
    by_cases hfound : (d.pond && !fails) = true
    · obtain ⟨hp, hf⟩ := Bool.and_eq_true_iff.1 hfound
      rw [if_pos hfound] at h
      cases h
      have hfailed : failed = true := hcreate (by simpa using hf) rfl hp
      show (failed || fails) = true
      rw [hfailed, Bool.true_or]
    · rw [if_neg hfound] at h
      cases h
      trivial
  | mkdir x again =>
    simp only [next] at h
    cases x with
    | data =>
      split_ifs at h with hthere hfails hpond hagain
      · cases h
        exact inv_behind_data (hdir hthere) hthere
      · cases h
        show (failed || fails) = true
        rw [hfails, Bool.or_true]
      · cases h
        exact inv_behind_data hpond rfl
      · cases h
        cases again with
        | false => cases hagain
        | true => exact absurd hinv hpond
      · cases h
        trivial
    | lineage =>
      cases again with
      | true => exact hinv.elim
      | false =>
        obtain ⟨hp, hd⟩ := hinv
        split_ifs at h with hthere hfails
        · cases h
          exact inv_finished hp hd hthere
        · cases h
          show (failed || fails) = true
          rw [hfails, Bool.or_true]
        · cases h
          exact inv_finished hp hd rfl
  | mkParent x =>
    cases x with
    | lineage => exact hinv.elim
    | data =>
      simp only [next] at h
      split_ifs at h with hpond hfails
      · cases h
        exact hpond
      · cases h
        show (failed || fails) = true
        rw [hfails, Bool.or_true]
      · cases h
        rfl
  | createLineage =>
    obtain ⟨hp, hd⟩ := hinv
    simp only [next] at h
    by_cases hfound : (d.lineage && !fails) = true
    · rw [if_pos hfound] at h
      cases h
      exact inv_finished hp hd (Bool.and_eq_true_iff.1 hfound).1
    · rw [if_neg hfound] at h
      cases h
      exact ⟨hp, hd⟩
  | ended r => cases h

end

/-! ### Runs -/

/-- The state that good steps keep: a directory is in its parent, and each call has seen to what it must. -/
structure Inv (root pondId : Text) (s : Fs) : Prop where
  nested : s.dirs.data = true → s.dirs.pond = true
  calls : ∀ c ∈ s.calls, c.Inv root pondId s.dirs

section

variable {root pondId : Text} {s s' : Fs} {l : Label}

theorem nested_next {d d' : Dirs} {c : Call} {pc : Pc} {fails : Bool} (hd : d.data = true → d.pond = true)
    (h : next root pondId d fails c = some (pc, d')) : d'.data = true → d'.pond = true := by
  unfold next at h
  split at h
  · split_ifs at h <;> cases h <;> exact hd
  · split_ifs at h <;> cases h <;> exact hd
  next x again hpc =>
    split_ifs at h with hthere hfails hpond
    · cases h
      exact hd
    · cases h
      exact hd
    · cases h
      exact fun _ => (d.pond_put x).trans hpond
    · cases h
      exact hd
    · cases h
      exact hd
  · split_ifs at h with hpond
    · cases h
      exact hd
    · cases h
      exact hd
    · cases h
      exact fun _ => rfl
  · split_ifs at h <;> cases h <;> exact hd
  · cases h

theorem inv_step (hs : Inv root pondId s) (hgood : Good s l) (h : step root pondId s l = some s') :
    Inv root pondId s' := by
  have hle := dirs_le_of_step h
  cases l with
  | call lineage =>
    cases h
    refine ⟨hs.nested, fun c hc => ?_⟩
    rcases List.mem_append.1 hc with hc | hc
    · exact hs.calls c hc
    · rw [List.mem_singleton.1 hc]
      trivial
  | step i fails =>
    simp only [step] at h
    split at h
    next c hi =>
      obtain ⟨⟨pc, d'⟩, hnext, heq⟩ := Option.map_eq_some_iff.1 h
      cases heq
      refine ⟨nested_next hs.nested hnext, fun c' hc' => ?_⟩
      rcases List.mem_or_eq_of_mem_set hc' with hmem | rfl
      · exact (hs.calls c' hmem).mono hle
      · refine inv_next (hs.calls c (List.mem_of_getElem? hi)) hs.nested ?_ ?_ hnext
        · rintro rfl
          exact (hgood c hi).1
        · rintro rfl
          exact (hgood c hi).2
    next => cases h
  | write i what =>
    simp only [step] at h
    split at h
    · cases h
      exact ⟨hs.nested, fun c hc => (hs.calls c hc).mono hle⟩
    · cases h

theorem right_of_inv {d : Dirs} {c : Call} (h : c.Inv root pondId d) : c.Right root pondId d := by
  obtain ⟨lineage, pc, failed⟩ := c
  cases pc with
  | ended r => exact h
  | _ => trivial

end

/-- A call that has not ended can take its next step, which brings it nearer to its end. -/
theorem goes_on {root pondId : Text} {s : Fs} {i : ℕ} {c : Call} (hi : s.calls[i]? = some c) (hc : ∀ r, c.pc ≠ .ended r)
    (fails : Bool) : ∃ s' c', step root pondId s (.step i fails) = some s' ∧ s'.calls[i]? = some c' ∧
      c'.lineage = c.lineage ∧ c'.pc.rank < c.pc.rank := by
  obtain ⟨⟨pc, d'⟩, hnext⟩ := Option.isSome_iff_exists.1 (@next_isSome root pondId s.dirs c fails hc)
  have hlt : i < s.calls.length := (List.getElem?_eq_some_iff.1 hi).1
  refine ⟨⟨d', s.calls.set i ⟨c.lineage, pc, c.failed || fails⟩⟩, ⟨c.lineage, pc, c.failed || fails⟩, ?_, ?_, rfl,
    rank_next hnext⟩
  · simp only [step, hi, hnext, Option.map_some]
  · rw [List.getElem?_set, if_pos rfl, if_pos hlt]

/-- **The layout is ensured**: from any directories, in every state of a careful run every call that has ended has the
pond's location and its whole layout, or has failed at a step of its own. In every run nothing is removed, and every call
that has not ended can go on, nine steps at most. -/
theorem ensured (root pondId : Text) {d : Dirs} (hd : d.data = true → d.pond = true) {ls : List Label}
    (h : Runs.Careful (step root pondId) Good (start d) ls) :
    Runs.Always (step root pondId) (Ensured root pondId) (start d) ls ∧
      (∀ ks s, Runs.run (step root pondId) (start d) ks = some s → d.Le s.dirs) ∧
      ∀ s i c, s.calls[i]? = some c → (∀ r, c.pc ≠ .ended r) → ∀ fails, ∃ s' c',
        step root pondId s (.step i fails) = some s' ∧ s'.calls[i]? = some c' ∧ c'.lineage = c.lineage ∧
          c'.pc.rank < c.pc.rank := by
  refine ⟨Runs.always_of_careful (fun _ _ _ => inv_step) ?_ ⟨hd, nofun⟩ h, fun ks s => dirs_le_of_run,
    fun s i c hi hc => goes_on hi hc⟩
  exact fun s hs c hc => right_of_inv (hs.calls c hc)

/-! ### What goes wrong -/

/-- No directories. -/
def bare : Dirs := ⟨false, false, false, []⟩

/-- One call creates a pond with lineage, a second one finds it there. -/
def oneByOne : List Label :=
  [.call true, .step 0 false, .step 0 false, .step 0 false, .step 0 false, .step 0 false, .step 0 false, .step 0 false,
    .write 0 7, .call true, .step 1 false, .step 1 false]

instance (s : Fs) (l : Label) : Decidable (Good s l) :=
  match l with
  | .step i false => inferInstanceAs (Decidable (∀ c ∈ s.calls[i]?, _ ∧ _))
  | .step _ true | .call _ | .write _ _ => inferInstanceAs (Decidable True)

theorem one_by_one_ensured :
    Runs.Always (step "/ponds".toList "p".toList) (Ensured "/ponds".toList "p".toList) (start bare) oneByOne :=
  (ensured "/ponds".toList "p".toList (by decide) (by decide +kernel)).1

/-- Two calls create a pond at once: both find it missing, and the second finds it there when it is about to create it. -/
def twoCreators : List Label :=
  [.call false, .call false, .step 0 false, .step 1 false, .step 0 false, .step 0 false, .step 0 false, .step 1 false]

/-- The data directory cannot be made; a later call finds the pond's. -/
def tornPond : List Label :=
  [.call false, .step 0 false, .step 0 false, .step 0 false, .step 0 false, .step 0 true, .call false, .step 1 false]

/-- A call of which no step fails ends with an error; and, behind a failure, one ends well without its data. -/
theorem not_ensured :
    ¬Runs.Always (step "/ponds".toList "p".toList) (Ensured "/ponds".toList "p".toList) (start bare) twoCreators ∧
      ¬Runs.Always (step "/ponds".toList "p".toList) (Ensured "/ponds".toList "p".toList) (start bare) tornPond := by
  refine ⟨fun h => ?_, fun h => ?_⟩
  · have hrun : (Runs.run (step "/ponds".toList "p".toList) (start bare) twoCreators).map (fun s => s.calls[1]?) =
        some (some ⟨false, .ended (.error (.alreadyExists "p".toList)), false⟩) := by decide +kernel
    obtain ⟨s, hs, hc⟩ := Option.map_eq_some_iff.1 hrun
    cases h.last hs _ (List.mem_of_getElem? hc)
  · have hrun : (Runs.run (step "/ponds".toList "p".toList) (start bare) tornPond).map (fun s => (s.calls[1]?, s.dirs)) =
        some (some ⟨false, finished "/ponds".toList "p".toList, false⟩, ⟨true, false, false, []⟩) := by decide +kernel
    obtain ⟨s, hs, hc⟩ := Option.map_eq_some_iff.1 hrun
    obtain ⟨hcall, hdirs⟩ := Prod.mk.inj hc
    have hright := h.last hs _ (List.mem_of_getElem? hcall)
    rw [hdirs] at hright
    cases hright.2.data

end LocalFs

end Latiq.Storage
