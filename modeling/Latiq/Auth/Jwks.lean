import Latiq.Library.RustStr
import Latiq.Library.Runs
import Mathlib.Algebra.Group.Nat.Defs

/-!
# The key cache of an issuer

`JwksCache` keeps the signing keys of one issuer. A lookup that misses fetches the issuer's document, unless a fetch was
completed within the current floor; a guard lets one caller fetch at a time, and the others wait for it.

## The model

* `Jwk`, `importKeys` — a published key, and the keys that are taken from a document.
* `Stage`, `Cache`, `JwksAct`, `JwksPolicy.step` — the calls of `key_for` with how far they are, and what they share: one step is
  what a call does between two points where another one can come in. Fetches answer, fail or hang until their timeout, and
  the future of a call is dropped at any of its awaits.

## What is proved

* `lookup_importKeys` — what is known of a key that is looked up.
* `bounded_iff` — one fetch at a time, no fetch within the floor of the last one, an unknown key told only where the last
  fetch that succeeded does not list it, and nothing that blocks a later fetch, in exactly the runs in which no fetch starts
  within the floor of one whose call was dropped, and no key is told unknown that has been fetched since the second look.
* `fetch_behind_a_drop` — a call that is dropped in its fetch, and the next one.
-/

namespace Latiq.Auth

open RustStr (Text)

/-! ### Published keys -/

/-- `jsonwebtoken::Algorithm`. -/
inductive Algorithm where
  | hs256 | hs384 | hs512 | es256 | es384 | rs256 | rs384 | rs512 | ps256 | ps384 | ps512 | edDSA
  deriving DecidableEq, Repr

/-- `jsonwebtoken::jwk::KeyAlgorithm`. -/
inductive KeyAlgorithm where
  | signing (alg : Algorithm)
  | rsa1_5
  | rsaOaep
  | rsaOaep256
  deriving DecidableEq, Repr

/-- `as_signing_alg`. -/
def asSigningAlg : KeyAlgorithm → Option Algorithm
  | .signing alg => some alg
  | _ => none

/-- `jsonwebtoken::jwk::PublicKeyUse`. -/
inductive PublicKeyUse where
  | signature
  | encryption
  | other (use : Text)
  deriving DecidableEq, Repr

/-- What is read of a published key. The material is the library's. -/
structure Jwk (μ : Type) where
  keyId : Option Text
  publicKeyUse : Option PublicKeyUse
  keyAlgorithm : Option KeyAlgorithm
  material : μ
  deriving DecidableEq, Repr

/-- `SigningKey`. -/
structure SigningKey (κ : Type) where
  key : κ
  alg : Option Algorithm
  deriving DecidableEq, Repr

section Import

variable {μ κ : Type} (fromJwk : Jwk μ → Option κ)

/-- One turn of the loop of `refresh_inner`: a key without an id, marked for encryption, declared for what is no signature,
or not usable is skipped. -/
def importKey (fresh : List (Text × SigningKey κ)) (jwk : Jwk μ) : List (Text × SigningKey κ) :=
  match jwk.keyId with
  | none => fresh
  | some kid =>
    if jwk.publicKeyUse = some .encryption then fresh
    else if jwk.keyAlgorithm.any fun a => (asSigningAlg a).isNone then fresh
    else
      match fromJwk jwk with
      | none => fresh
      | some key => (kid, ⟨key, jwk.keyAlgorithm.bind asSigningAlg⟩) :: fresh.filter fun k => k.1 ≠ kid

/-- The keys of a document, by their ids. -/
def importKeys (doc : List (Jwk μ)) : List (Text × SigningKey κ) := doc.foldl (importKey fromJwk) []

/-- A key that may be used: not marked for encryption, nor declared for what is no signature, and read by the library. -/
structure Jwk.Usable (jwk : Jwk μ) (kid : Text) (key : SigningKey κ) : Prop where
  listed : jwk.keyId = some kid
  not_encryption : jwk.publicKeyUse ≠ some .encryption
  signing : ∀ a, jwk.keyAlgorithm = some a → ∃ alg, asSigningAlg a = some alg
  read : fromJwk jwk = some key.key
  declared : key.alg = jwk.keyAlgorithm.bind asSigningAlg

theorem importKey_eq (fresh : List (Text × SigningKey κ)) (jwk : Jwk μ) :
    importKey fromJwk fresh jwk = fresh ∨ ∃ kid key, jwk.Usable fromJwk kid key ∧
      importKey fromJwk fresh jwk = (kid, key) :: fresh.filter fun k => k.1 ≠ kid := by
  unfold importKey
  cases hid : jwk.keyId with
  | none => exact .inl rfl
  | some kid =>
    dsimp only
    split_ifs with huse hdecl
    · exact .inl rfl
    · exact .inl rfl
    · cases hread : fromJwk jwk with
      | none => exact .inl rfl
      | some key =>
        refine .inr ⟨kid, ⟨key, jwk.keyAlgorithm.bind asSigningAlg⟩, ⟨hid, huse, fun a ha => ?_, hread, rfl⟩, rfl⟩
        rw [ha] at hdecl
        cases hs : asSigningAlg a with
        | none => exact absurd (by simp [hs]) hdecl
        | some alg => exact ⟨alg, rfl⟩

/-- **What is known of a key** that is found in a document: the document lists it, and it may be used. -/
theorem lookup_importKeys {doc : List (Jwk μ)} {kid : Text} {key : SigningKey κ}
    (h : (importKeys fromJwk doc).lookup kid = some key) : ∃ jwk ∈ doc, jwk.Usable fromJwk kid key := by
  suffices hgen : ∀ (doc : List (Jwk μ)) (fresh : List (Text × SigningKey κ)),
      (kid, key) ∈ doc.foldl (importKey fromJwk) fresh → (kid, key) ∈ fresh ∨ ∃ jwk ∈ doc, jwk.Usable fromJwk kid key by
    have hmem : (kid, key) ∈ importKeys fromJwk doc := by
      obtain ⟨l₁, l₂, hsplit, -⟩ := List.lookup_eq_some_iff.1 h
      rw [hsplit]
      exact List.mem_append_right _ List.mem_cons_self
    exact (hgen doc [] hmem).resolve_left List.not_mem_nil
  intro doc
  induction doc with
  | nil => exact fun fresh hmem => .inl hmem
  | cons jwk doc ih =>
    intro fresh hmem
    rcases ih _ hmem with hmem | ⟨j, hj, hu⟩
    · rcases importKey_eq fromJwk fresh jwk with heq | ⟨kid', key', hu, heq⟩
      · exact .inl (heq ▸ hmem)
      · rw [heq] at hmem
        rcases List.mem_cons.1 hmem with hnew | hold
        · obtain ⟨rfl, rfl⟩ := Prod.mk.inj hnew
          exact .inr ⟨jwk, List.mem_cons_self, hu⟩
        · exact .inl (List.mem_filter.1 hold).1
    · exact .inr ⟨j, List.mem_cons_of_mem _ hj, hu⟩

end Import

/-! ### The cache and its calls -/

/-- `AuthError`. -/
inductive AuthError where
  | missing
  | malformed (message : Text)
  | unknownKid (kid : Text)
  | invalid (message : Text)
  | jwks (message : Text)
  deriving DecidableEq, Repr

/-- `IDP_UNAVAILABLE`. -/
def idpUnavailable : Text := "identity provider JWKS endpoint unavailable".toList

/-- `char::is_control`, the category Cc. -/
def isControl (c : Char) : Bool := c.val < 0x20 || (0x7f ≤ c.val && c.val ≤ 0x9f)

/-- `sanitize_kid`. -/
def sanitizeKid (kid : Text) : Text := (kid.filter fun c => !isControl c).take 64

/-- How far a call of `key_for` is with a key id. -/
inductive Stage (μ κ : Type) where
  /-- Before the first look. An await. -/
  | entering (kid : Text)
  /-- The first look missed; before `too_soon`. -/
  | missed (kid : Text)
  /-- Before the snapshot of the generation. -/
  | passed (kid : Text)
  /-- Queued on the guard, with the generation. An await. -/
  | queued (kid : Text) (generation : ℕ)
  /-- With the guard, before the second check. -/
  | holding (kid : Text) (generation : ℕ)
  /-- In `fetch`, since this time. An await. -/
  | fetching (kid : Text) (since : ℕ)
  /-- With a document, before the keys are replaced. An await. -/
  | fetched (kid : Text) (doc : List (Jwk μ))
  /-- `refresh_inner` is over, and its completion still to be recorded. -/
  | ended (kid : Text) (result : Except AuthError Unit)
  /-- The state is recorded, and the generation still to be bumped. -/
  | stamped (kid : Text) (result : Except AuthError Unit)
  /-- Before the second look. An await. -/
  | looking (kid : Text)
  /-- The second look missed; before the error is chosen. -/
  | missedTwice (kid : Text)
  /-- With its answer, and for the statements the document that was fetched last when it was found. -/
  | answered (kid : Text) (answer : Except AuthError (SigningKey κ)) (latest : Option (List (Jwk μ)))
  | dropped

/-- The key id of a call that is alive. -/
def Stage.kid {μ κ : Type} : Stage μ κ → Option Text
  | .entering kid | .missed kid | .passed kid | .queued kid _ | .holding kid _ | .fetching kid _ | .fetched kid _
  | .ended kid _ | .stamped kid _ | .looking kid | .missedTwice kid | .answered kid _ _ => some kid
  | .dropped => none

/-- Whether the guard is held at this stage. -/
def Stage.holds {μ κ : Type} : Stage μ κ → Bool
  | .holding .. | .fetching .. | .fetched .. | .ended .. | .stamped .. => true
  | _ => false

/-- Whether a fetch is in progress at this stage. -/
def Stage.fetches {μ κ : Type} : Stage μ κ → Bool
  | .fetching .. | .fetched .. => true
  | _ => false

/-- How the last fetch ended, and when. -/
inductive End where
  | completed (time : ℕ)
  | abandoned (time : ℕ)
  deriving DecidableEq, Repr

/-- When the last fetch ended. -/
def End.time : End → ℕ
  | .completed t | .abandoned t => t

/-- A fetch that has started, with the floor and the end of the one before. -/
structure FetchStart where
  time : ℕ
  floor : ℕ
  previous : Option End
  deriving DecidableEq, Repr

/-- What the calls share, with their stages, and for the statements what has happened. -/
structure Cache (μ κ : Type) where
  now : ℕ
  keys : List (Text × SigningKey κ)
  completedAt : Option ℕ
  consecutiveFailures : ℕ
  refreshesCompleted : ℕ
  /-- Who holds the guard `refreshing`. -/
  refreshing : Option ℕ
  calls : List (Stage μ κ)
  lastEnd : Option End
  starts : List FetchStart
  /-- The documents of the fetches that succeeded, the last one first. -/
  installed : List (List (Jwk μ))
  /-- The key ids that were told unknown, each with what was installed by then. -/
  unknowns : List (Text × List (List (Jwk μ)))

/-- The durations of a cache, and the timeout of its client. -/
structure JwksPolicy where
  minRefreshInterval : ℕ
  failureBackoffBase : ℕ
  fetchTimeout : ℕ
  deriving DecidableEq, Repr

/-- What can happen. -/
inductive JwksAct (μ : Type) where
  /-- Time passes. -/
  | pass (duration : ℕ)
  | call (kid : Text)
  /-- A call gets to its next await, or to the next point where another one can come in. -/
  | go (c : ℕ)
  /-- A fetch comes to its end. -/
  | fetch (c : ℕ) (outcome : Except Text (List (Jwk μ)))
  /-- The future of a call is dropped. -/
  | drop (c : ℕ)

namespace JwksPolicy

variable {μ κ : Type} (p : JwksPolicy)

/-- A new cache. -/
def start : Cache μ κ := ⟨0, [], none, 0, 0, none, [], none, [], [], []⟩

/-- `floor`. -/
def floor (consecutiveFailures : ℕ) : ℕ :=
  if consecutiveFailures = 0 then p.minRefreshInterval
  else min (p.failureBackoffBase * 2 ^ min (consecutiveFailures - 1) 16) p.minRefreshInterval

/-- `too_soon`. -/
def tooSoon (s : Cache μ κ) : Bool :=
  match s.completedAt with
  | none => false
  | some t => s.now - t < p.floor s.consecutiveFailures

end JwksPolicy

/-- A call has got to a stage. -/
def Cache.at {μ κ : Type} (s : Cache μ κ) (c : ℕ) (stage : Stage μ κ) : Cache μ κ :=
  { s with calls := s.calls.set c stage }

/-- A call has its answer. -/
def Cache.answer {μ κ : Type} (s : Cache μ κ) (c : ℕ) (kid : Text) (answer : Except AuthError (SigningKey κ)) : Cache μ κ :=
  s.at c (.answered kid answer s.installed.head?)

namespace JwksPolicy

variable {μ κ : Type} (p : JwksPolicy) (fromJwk : Jwk μ → Option κ)

/-- What a call does from a stage, up to where another one can come in. -/
def goFrom (s : Cache μ κ) (c : ℕ) : Stage μ κ → Option (Cache μ κ)
  | .entering kid =>
    match s.keys.lookup kid with
    | some key => some (s.answer c kid (.ok key))
    | none => some (s.at c (.missed kid))
  | .missed kid => some (s.at c (if p.tooSoon s then .looking kid else .passed kid))
  | .passed kid => some (s.at c (.queued kid s.refreshesCompleted))
  | .queued kid generation =>
    if s.refreshing = none then some { s.at c (.holding kid generation) with refreshing := some c } else none
  | .holding kid generation =>
    if s.refreshesCompleted ≠ generation ∨ p.tooSoon s then some { s.at c (.looking kid) with refreshing := none }
    else
      some { s.at c (.fetching kid s.now) with
        starts := ⟨s.now, p.floor s.consecutiveFailures, s.lastEnd⟩ :: s.starts }
  | .fetched kid doc =>
    some { s.at c (.ended kid (.ok ())) with keys := importKeys fromJwk doc, installed := doc :: s.installed }
  | .ended kid result =>
    some { s.at c (.stamped kid result) with
      completedAt := some s.now
      consecutiveFailures := if result.isOk then 0 else min (s.consecutiveFailures + 1) (2 ^ 32 - 1)
      lastEnd := some (.completed s.now) }
  | .stamped kid (.ok ()) =>
    some { s.at c (.looking kid) with refreshesCompleted := s.refreshesCompleted + 1, refreshing := none }
  | .stamped kid (.error e) =>
    some { s.answer c kid (.error e) with refreshesCompleted := s.refreshesCompleted + 1, refreshing := none }
  | .looking kid =>
    match s.keys.lookup kid with
    | some key => some (s.answer c kid (.ok key))
    | none => some (s.at c (.missedTwice kid))
  | .missedTwice kid =>
    if 0 < s.consecutiveFailures then some (s.answer c kid (.error (.jwks idpUnavailable)))
    else
      some { s.answer c kid (.error (.unknownKid (sanitizeKid kid))) with unknowns := (kid, s.installed) :: s.unknowns }
  | .fetching .. | .answered .. | .dropped => none

/-- Where the future of a call is dropped: the guard of a fetch goes with it, and nothing is recorded. -/
def dropFrom (s : Cache μ κ) (c : ℕ) : Stage μ κ → Option (Cache μ κ)
  | .entering _ | .queued .. | .looking _ => some (s.at c .dropped)
  | .fetching .. | .fetched .. =>
    some { s.at c .dropped with refreshing := none, lastEnd := some (.abandoned s.now) }
  | _ => none

/-- A fetch hangs no longer than the timeout of the client. -/
def WithinTimeout (now : ℕ) : Stage μ κ → Prop
  | .fetching _ since => now ≤ since + p.fetchTimeout
  | _ => True

instance (now : ℕ) : (stage : Stage μ κ) → Decidable (p.WithinTimeout now stage)
  | .fetching _ since => inferInstanceAs (Decidable (now ≤ since + p.fetchTimeout))
  | .entering _ | .missed _ | .passed _ | .queued .. | .holding .. | .fetched .. | .ended .. | .stamped .. | .looking _
  | .missedTwice _ | .answered .. | .dropped => inferInstanceAs (Decidable True)

/-- One step of the calls of a cache. -/
def step (s : Cache μ κ) : JwksAct μ → Option (Cache μ κ)
  | .pass duration =>
    if ∀ stage ∈ s.calls, p.WithinTimeout (s.now + duration) stage then some { s with now := s.now + duration } else none
  | .call kid => some { s with calls := s.calls ++ [.entering kid] }
  | .go c => s.calls[c]?.bind (p.goFrom fromJwk s c)
  | .fetch c outcome =>
    match s.calls[c]? with
    | some (.fetching kid _) =>
      match outcome with
      | .ok doc => some (s.at c (.fetched kid doc))
      | .error m => some (s.at c (.ended kid (.error (.jwks m))))
    | _ => none
  | .drop c => s.calls[c]?.bind (dropFrom s c)

/-! ### Single flight, bounded -/

/-- A document lists a key under an id: one that may be used. -/
def Lists (doc : List (Jwk μ)) (kid : Text) : Prop := ((importKeys fromJwk doc).lookup kid).isSome

/-- Some fetch that succeeded does not list the key, and none behind it does. -/
def Unlisted (installed : List (List (Jwk μ))) (kid : Text) : Prop :=
  ∃ newer doc older, installed = newer ++ doc :: older ∧ ¬Lists fromJwk doc kid ∧ ∀ d ∈ newer, ¬Lists fromJwk d kid

/-- **Single flight, bounded**. -/
structure Bounded (s : Cache μ κ) : Prop where
  /-- One fetch at a time. -/
  single : ∀ (c c' : ℕ) (st st' : Stage μ κ), s.calls[c]? = some st → s.calls[c']? = some st' →
    st.fetches → st'.fetches → c = c'
  /-- No fetch has started within the floor of the one before, however that ended. -/
  paced : ∀ f ∈ s.starts, ∀ e ∈ f.previous, e.time + f.floor ≤ f.time
  /-- Key ids are told unknown only where they are not listed. -/
  unknown : ∀ u ∈ s.unknowns, Unlisted fromJwk u.2 u.1
  /-- The guard is held by a call that is alive, and a fetch is within its timeout. -/
  held : ∀ c, s.refreshing = some c → ∃ st, s.calls[c]? = some st ∧ st.holds ∧ p.WithinTimeout s.now st
  /-- Where nobody holds the guard, and the floor has elapsed since the last fetch ended, a call that misses fetches at once. -/
  unblocked : s.refreshing = none → (∀ e ∈ s.lastEnd, e.time + p.floor s.consecutiveFailures ≤ s.now) →
    ∀ c kid, s.calls[c]? = some (.entering kid) → s.keys.lookup kid = none →
      ∃ s', Runs.run (p.step fromJwk) s (List.replicate 5 (.go c)) = some s' ∧ s'.calls[c]? = some (.fetching kid s.now)

/-- A fetch does not start within the floor of one whose call was dropped, and a call that missed twice behind a success finds
its key still missing when it answers. -/
def PatientAt (s : Cache μ κ) : Stage μ κ → Prop
  | .holding _ generation => s.refreshesCompleted = generation → p.tooSoon s = false →
      ∀ t, s.lastEnd = some (.abandoned t) → t + p.floor s.consecutiveFailures ≤ s.now
  | .missedTwice kid => s.consecutiveFailures = 0 → s.keys.lookup kid = none
  | _ => True

/-- A step that is patient. -/
def Patient (s : Cache μ κ) : JwksAct μ → Prop
  | .go c => ∀ st ∈ s.calls[c]?, p.PatientAt s st
  | _ => True

/-! ### The invariant -/

variable {p fromJwk}

/-- What is known at a stage. -/
def AtStage (p : JwksPolicy) (fromJwk : Jwk μ → Option κ) (s : Cache μ κ) : Stage μ κ → Prop
  | .queued _ generation | .holding _ generation => generation ≤ s.refreshesCompleted
  | .fetching _ since => s.now ≤ since + p.fetchTimeout
  | .ended _ result => result.isOk → s.installed ≠ []
  | .stamped .. | .looking _ | .missedTwice _ => s.completedAt.isSome
  | .answered kid (.ok key) latest => ∃ doc, latest = some doc ∧ (importKeys fromJwk doc).lookup kid = some key
  | _ => True

/-- What holds in every run. -/
structure Inv (p : JwksPolicy) (fromJwk : Jwk μ → Option κ) (s : Cache μ κ) : Prop where
  guard : ∀ c, s.refreshing = some c ↔ ∃ st : Stage μ κ, s.calls[c]? = some st ∧ st.holds
  stages : ∀ (c : ℕ) (st : Stage μ κ), s.calls[c]? = some st → p.AtStage fromJwk s st
  keys : s.keys = (s.installed.head?.map (importKeys fromJwk)).getD []
  bumped : 0 < s.refreshesCompleted → s.completedAt.isSome
  success : s.completedAt.isSome → s.consecutiveFailures = 0 → s.installed ≠ []
  completed : ∀ t, s.lastEnd = some (.completed t) → s.completedAt = some t
  ends : ∀ t, s.completedAt = some t → ∃ e, s.lastEnd = some e ∧ t ≤ e.time
  past : ∀ e, s.lastEnd = some e → e.time ≤ s.now

theorem Inv.start : p.Inv fromJwk (JwksPolicy.start : Cache μ κ) where
  guard _ := ⟨nofun, fun ⟨_, h, _⟩ => nomatch h⟩
  stages _ _ h := nomatch h
  keys := rfl
  bumped h := nomatch h
  success h := nomatch h
  completed _ h := nomatch h
  ends _ h := nomatch h
  past _ h := nomatch h

/-- A stage stays as it is known where nothing it rests on goes back. -/
theorem AtStage.mono {s s' : Cache μ κ} {st : Stage μ κ} (h : p.AtStage fromJwk s st) (hnow : s'.now = s.now)
    (hgen : s.refreshesCompleted ≤ s'.refreshesCompleted) (hinst : s.installed ≠ [] → s'.installed ≠ [])
    (hdone : s.completedAt.isSome → s'.completedAt.isSome) : p.AtStage fromJwk s' st := by
  cases st with
  | queued kid g => exact le_trans (show g ≤ s.refreshesCompleted from h) hgen
  | holding kid g => exact le_trans (show g ≤ s.refreshesCompleted from h) hgen
  | fetching kid since =>
    show s'.now ≤ _
    rw [hnow]
    exact h
  | ended kid result => exact fun hok => hinst (h hok)
  | stamped kid result => exact hdone h
  | looking kid => exact hdone h
  | missedTwice kid => exact hdone h
  | answered kid answer latest =>
    cases answer with
    | ok key => exact h
    | error e => trivial
  | entering | missed | passed | fetched | dropped => trivial

/-- The stages of the calls where one has got further. -/
theorem getElem?_set_cases {calls : List (Stage μ κ)} {c k : ℕ} {st st' : Stage μ κ}
    (h : (calls.set c st)[k]? = some st') : k = c ∧ st' = st ∨ k ≠ c ∧ calls[k]? = some st' := by
  rw [List.getElem?_set] at h
  split_ifs at h with hk hlt
  · exact .inl ⟨hk.symm, (Option.some.inj h).symm⟩
  · exact .inr ⟨fun heq => hk heq.symm, h⟩

section Guard

variable {calls : List (Stage μ κ)} {r : Option ℕ} {c : ℕ} {st st' : Stage μ κ}

/-- The guard stays with its holder. -/
theorem guard_keep (h : ∀ k, r = some k ↔ ∃ st : Stage μ κ, calls[k]? = some st ∧ st.holds) (hc : calls[c]? = some st)
    (hst : st'.holds = st.holds) (k : ℕ) : r = some k ↔ ∃ x : Stage μ κ, (calls.set c st')[k]? = some x ∧ x.holds := by
  rw [h k]
  have hlt : c < calls.length := (List.getElem?_eq_some_iff.1 hc).1
  by_cases hk : k = c
  · subst hk
    rw [List.getElem?_set_self hlt]
    simp only [hc, Option.some.injEq, exists_eq_left', hst]
  · rw [List.getElem?_set_ne (Ne.symm hk)]

/-- A free guard is taken. -/
theorem guard_take (h : ∀ k, r = some k ↔ ∃ st : Stage μ κ, calls[k]? = some st ∧ st.holds) (hc : calls[c]? = some st)
    (hfree : r = none) (hst : st'.holds) (k : ℕ) :
    (some c : Option ℕ) = some k ↔ ∃ x : Stage μ κ, (calls.set c st')[k]? = some x ∧ x.holds := by
  have hlt : c < calls.length := (List.getElem?_eq_some_iff.1 hc).1
  constructor
  · intro hk
    obtain rfl := Option.some.inj hk
    exact ⟨st', List.getElem?_set_self hlt, hst⟩
  · rintro ⟨x, hx, hholds⟩
    rcases getElem?_set_cases hx with ⟨rfl, -⟩ | ⟨-, hx⟩
    · rfl
    · rw [hfree] at h
      exact absurd ((h k).2 ⟨x, hx, hholds⟩) nofun

/-- The guard is let go by its holder. -/
theorem guard_release (h : ∀ k, r = some k ↔ ∃ st : Stage μ κ, calls[k]? = some st ∧ st.holds) (hc : calls[c]? = some st)
    (hst : st.holds) (hst' : st'.holds = false) (k : ℕ) :
    (none : Option ℕ) = some k ↔ ∃ x : Stage μ κ, (calls.set c st')[k]? = some x ∧ x.holds := by
  refine ⟨nofun, ?_⟩
  rintro ⟨x, hx, hholds⟩
  rcases getElem?_set_cases hx with ⟨-, rfl⟩ | ⟨hne, hx⟩
  · rw [hst'] at hholds
    cases hholds
  · have hr : r = some c := (h c).2 ⟨st, hc, hst⟩
    rw [(h k).2 ⟨x, hx, hholds⟩] at hr
    exact absurd (Option.some.inj hr) hne

end Guard

/-- The stages where one call has got further. -/
theorem Inv.stages_at {s s' : Cache μ κ} (h : p.Inv fromJwk s) {c : ℕ} {st : Stage μ κ} (hcalls : s'.calls = s.calls.set c st)
    (hmono : ∀ x, p.AtStage fromJwk s x → p.AtStage fromJwk s' x) (hst : p.AtStage fromJwk s' st) (k : ℕ) (x : Stage μ κ)
    (hx : s'.calls[k]? = some x) : p.AtStage fromJwk s' x := by
  rw [hcalls] at hx
  rcases getElem?_set_cases hx with ⟨-, rfl⟩ | ⟨-, hx⟩
  · exact hst
  · exact hmono x (h.stages k x hx)

/-- A call that gets further with nothing else changed. -/
theorem Inv.at {s : Cache μ κ} (h : p.Inv fromJwk s) {c : ℕ} {st : Stage μ κ} (st' : Stage μ κ) (hc : s.calls[c]? = some st)
    (hholds : st'.holds = st.holds) (hst : p.AtStage fromJwk s st') : p.Inv fromJwk (s.at c st') where
  guard := guard_keep h.guard hc hholds
  stages := h.stages_at rfl (fun _ hx => hx.mono rfl le_rfl id id) (hst.mono rfl le_rfl id id)
  keys := h.keys
  bumped := h.bumped
  success := h.success
  completed := h.completed
  ends := h.ends
  past := h.past

/-- A call that gets further, with a guard that has changed hands. -/
theorem Inv.handed {s : Cache μ κ} (h : p.Inv fromJwk s) {c : ℕ} {st' : Stage μ κ} {r : Option ℕ}
    (hguard : ∀ k, r = some k ↔ ∃ x : Stage μ κ, (s.calls.set c st')[k]? = some x ∧ x.holds) (hst : p.AtStage fromJwk s st') :
    p.Inv fromJwk { s.at c st' with refreshing := r } where
  guard := hguard
  stages := h.stages_at rfl (fun _ hx => hx.mono rfl le_rfl id id) (hst.mono rfl le_rfl id id)
  keys := h.keys
  bumped := h.bumped
  success := h.success
  completed := h.completed
  ends := h.ends
  past := h.past

/-- A call whose fetch is recorded lets the guard go, and the refresh is counted. -/
theorem Inv.released {s : Cache μ κ} (h : p.Inv fromJwk s) {c : ℕ} {kid : Text} {result : Except AuthError Unit}
    (hc : s.calls[c]? = some (.stamped kid result)) {st' : Stage μ κ} (hholds : st'.holds = false)
    (hst : p.AtStage fromJwk s st') :
    p.Inv fromJwk { s.at c st' with refreshesCompleted := s.refreshesCompleted + 1, refreshing := none } where
  guard := guard_release h.guard hc rfl hholds
  stages := h.stages_at rfl (fun _ hx => hx.mono rfl (Nat.le_succ _) id id) (hst.mono rfl (Nat.le_succ _) id id)
  keys := h.keys
  bumped _ := h.stages c _ hc
  success := h.success
  completed := h.completed
  ends := h.ends
  past := h.past

/-- Nothing rests on what is only recorded. -/
theorem Inv.records {s : Cache μ κ} (h : p.Inv fromJwk s) (starts : List FetchStart)
    (unknowns : List (Text × List (List (Jwk μ)))) : p.Inv fromJwk { s with starts, unknowns } where
  guard := h.guard
  stages c st hc := (h.stages c st hc).mono rfl le_rfl id id
  keys := h.keys
  bumped := h.bumped
  success := h.success
  completed := h.completed
  ends := h.ends
  past := h.past

theorem completedAt_of_tooSoon {s : Cache μ κ} (h : p.tooSoon s = true) : s.completedAt.isSome := by
  unfold tooSoon at h
  cases hc : s.completedAt with
  | none => simp [hc] at h
  | some t => rfl

/-- What is found is in the document that was fetched last. -/
theorem Inv.found {s : Cache μ κ} (h : p.Inv fromJwk s) {kid : Text} {key : SigningKey κ}
    (hfound : s.keys.lookup kid = some key) :
    ∃ doc, s.installed.head? = some doc ∧ (importKeys fromJwk doc).lookup kid = some key := by
  rw [h.keys] at hfound
  cases hhead : s.installed.head? with
  | none =>
    rw [hhead] at hfound
    cases hfound
  | some doc =>
    rw [hhead] at hfound
    exact ⟨doc, rfl, hfound⟩

/-- **One step of a call** keeps what is known. -/
theorem Inv.go {s s' : Cache μ κ} (h : p.Inv fromJwk s) {c : ℕ} {st : Stage μ κ} (hc : s.calls[c]? = some st)
    (hstep : p.goFrom fromJwk s c st = some s') : p.Inv fromJwk s' := by
  have hst := h.stages c st hc
  cases st with
  | entering kid =>
    simp only [goFrom] at hstep
    split at hstep
    · rename_i key hfound
      cases hstep
      exact h.at _ hc rfl (h.found hfound)
    · cases hstep
      exact h.at _ hc rfl trivial
  | missed kid =>
    cases hstep
    cases hsoon : p.tooSoon s with
    | true => exact h.at _ hc rfl (completedAt_of_tooSoon hsoon)
    | false => exact h.at _ hc rfl trivial
  | passed kid =>
    cases hstep
    exact h.at _ hc rfl (le_refl s.refreshesCompleted)
  | queued kid g =>
    simp only [goFrom] at hstep
    split_ifs at hstep with hfree
    cases hstep
    exact h.handed (guard_take h.guard hc hfree rfl) hst
  | holding kid g =>
    simp only [goFrom] at hstep
    split_ifs at hstep with hride
    · cases hstep
      refine h.handed (guard_release h.guard hc rfl rfl) ?_
      rcases hride with hne | hsoon
      · have hle : g ≤ s.refreshesCompleted := hst
        exact h.bumped (by omega)
      · exact completedAt_of_tooSoon hsoon
    · cases hstep
      exact (h.at (.fetching kid s.now) hc rfl (Nat.le_add_right s.now p.fetchTimeout)).records _ _
  | fetched kid doc =>
    cases hstep
    exact {
      guard := guard_keep h.guard hc rfl
      stages := h.stages_at rfl (fun x hx => hx.mono rfl le_rfl (fun _ => List.cons_ne_nil _ _) id)
        fun _ => List.cons_ne_nil _ _
      keys := rfl
      bumped := h.bumped
      success := fun _ _ => List.cons_ne_nil _ _
      completed := h.completed
      ends := h.ends
      past := h.past }
  | ended kid result =>
    cases hstep
    refine {
      guard := guard_keep h.guard hc rfl
      stages := h.stages_at rfl (fun x hx => hx.mono rfl le_rfl id fun _ => rfl) rfl
      keys := h.keys
      bumped := fun _ => rfl
      success := fun _ hzero => ?_
      completed := fun t ht => ?_
      ends := fun t ht => ⟨_, rfl, ?_⟩
      past := fun e he => ?_ }
    · cases hok : result.isOk with
      | true => exact hst hok
      | false =>
        dsimp only at hzero
        rw [hok] at hzero
        simp at hzero
    · cases ht
      rfl
    · cases ht
      exact le_rfl
    · cases he
      exact le_rfl
  | stamped kid result =>
    cases result with
    | ok u =>
      cases hstep
      exact h.released hc rfl hst
    | error e =>
      cases hstep
      exact h.released hc rfl trivial
  | looking kid =>
    simp only [goFrom] at hstep
    split at hstep
    · rename_i key hfound
      cases hstep
      exact h.at _ hc rfl (h.found hfound)
    · cases hstep
      exact h.at _ hc rfl hst
  | missedTwice kid =>
    simp only [goFrom] at hstep
    split_ifs at hstep
    · cases hstep
      exact h.at _ hc rfl trivial
    · cases hstep
      exact (h.at (.answered kid (.error (.unknownKid (sanitizeKid kid))) s.installed.head?) hc rfl trivial).records _ _
  | fetching | answered | dropped => cases hstep

/-- A call that is dropped keeps what is known: its guard goes with it. -/
theorem Inv.dropped {s s' : Cache μ κ} (h : p.Inv fromJwk s) {c : ℕ} {st : Stage μ κ} (hc : s.calls[c]? = some st)
    (hstep : dropFrom s c st = some s') : p.Inv fromJwk s' := by
  have hfetch : st.holds = true →
      p.Inv fromJwk { s.at c .dropped with refreshing := none, lastEnd := some (.abandoned s.now) } := by
    intro hholds
    have hat : p.Inv fromJwk { s.at c .dropped with refreshing := none } :=
      h.handed (guard_release h.guard hc hholds rfl) trivial
    exact ⟨hat.guard, fun k x hx => (hat.stages k x hx).mono rfl le_rfl id id, hat.keys, hat.bumped, hat.success, nofun,
      fun t ht => by
        obtain ⟨e, he, hle⟩ := h.ends t ht
        exact ⟨_, rfl, hle.trans (h.past e he)⟩,
      fun e he => by
        cases he
        exact le_rfl⟩
  cases st with
  | entering | queued | looking =>
    cases hstep
    exact h.at .dropped hc rfl trivial
  | fetching | fetched =>
    cases hstep
    exact hfetch rfl
  | missed | passed | holding | ended | stamped | missedTwice | answered | dropped => cases hstep

theorem Inv.step {s s' : Cache μ κ} (h : p.Inv fromJwk s) {a : JwksAct μ} (hstep : p.step fromJwk s a = some s') :
    p.Inv fromJwk s' := by
  cases a with
  | pass d =>
    simp only [JwksPolicy.step] at hstep
    split_ifs at hstep with hall
    cases hstep
    refine ⟨h.guard, fun c st hc => ?_, h.keys, h.bumped, h.success, h.completed, h.ends, fun e he => ?_⟩
    · have hin := hall st (List.mem_of_getElem? hc)
      have hst := h.stages c st hc
      cases st with
      | fetching kid since => exact hin
      | queued | holding | ended | stamped | looking | missedTwice => exact hst
      | answered kid answer latest => cases answer <;> exact hst
      | entering | missed | passed | fetched | dropped => trivial
    · exact (h.past e he).trans (Nat.le_add_right _ _)
  | call kid =>
    cases hstep
    have hnew : ∀ (c : ℕ) (st : Stage μ κ), (s.calls ++ [.entering kid])[c]? = some st →
        s.calls[c]? = some st ∨ st = .entering kid := by
      intro c st hc
      rw [List.getElem?_append] at hc
      split_ifs at hc
      · exact .inl hc
      · exact .inr (List.mem_singleton.1 (List.mem_of_getElem? hc))
    refine ⟨fun c => (h.guard c).trans ⟨?_, ?_⟩, fun c st hc => ?_, h.keys, h.bumped, h.success, h.completed, h.ends, h.past⟩
    · rintro ⟨st, hc, hst⟩
      exact ⟨st, by rw [List.getElem?_append_left (List.getElem?_eq_some_iff.1 hc).1, hc], hst⟩
    · rintro ⟨st, hc, hst⟩
      rcases hnew c st hc with hold | rfl
      · exact ⟨st, hold, hst⟩
      · cases hst
    · rcases hnew c st hc with hold | rfl
      · exact (h.stages c st hold).mono rfl le_rfl id id
      · trivial
  | go c =>
    obtain ⟨st, hc, hstep⟩ := Option.bind_eq_some_iff.1 hstep
    exact h.go hc hstep
  | fetch c outcome =>
    simp only [JwksPolicy.step] at hstep
    split at hstep
    · rename_i kid since hc
      cases outcome with
      | ok doc =>
        cases hstep
        exact h.at (.fetched kid doc) hc rfl trivial
      | error m =>
        cases hstep
        exact h.at (.ended kid (.error (.jwks m))) hc rfl nofun
    · cases hstep
  | drop c =>
    obtain ⟨st, hc, hstep⟩ := Option.bind_eq_some_iff.1 hstep
    exact h.dropped hc hstep

/-- A call keeps its key id until it is dropped. -/
theorem step_kid {s s' : Cache μ κ} {a : JwksAct μ} (h : p.step fromJwk s a = some s') {c : ℕ} {st : Stage μ κ}
    (hc : s.calls[c]? = some st) :
    ∃ st', s'.calls[c]? = some st' ∧ ∀ kid, st'.kid = some kid → st.kid = some kid := by
  have hset : ∀ (k : ℕ) (x x' : Stage μ κ), s.calls[k]? = some x → (∀ kid, x'.kid = some kid → x.kid = some kid) →
      ∃ st', (s.calls.set k x')[c]? = some st' ∧ ∀ kid, st'.kid = some kid → st.kid = some kid := by
    intro k x x' hk hkid
    by_cases hck : k = c
    · subst hck
      rw [hc] at hk
      cases hk
      exact ⟨x', List.getElem?_set_self (List.getElem?_eq_some_iff.1 hc).1, hkid⟩
    · exact ⟨st, by rw [List.getElem?_set_ne hck, hc], fun _ hkid => hkid⟩
  cases a with
  | pass d =>
    simp only [step] at h
    split_ifs at h
    cases h
    exact ⟨st, hc, fun _ hkid => hkid⟩
  | call kid =>
    cases h
    exact ⟨st, by rw [List.getElem?_append_left (List.getElem?_eq_some_iff.1 hc).1, hc], fun _ hkid => hkid⟩
  | fetch k outcome =>
    simp only [step] at h
    split at h
    · rename_i kid since hk
      cases outcome <;> cases h <;> exact hset k _ _ hk fun _ hkid => hkid
    · cases h
  | drop k =>
    obtain ⟨x, hk, h⟩ := Option.bind_eq_some_iff.1 h
    cases x <;> cases h <;> exact hset k _ _ hk nofun
  | go k =>
    obtain ⟨x, hk, h⟩ := Option.bind_eq_some_iff.1 h
    cases x with
    | entering | looking =>
      simp only [goFrom] at h
      split at h <;> cases h <;> exact hset k _ _ hk fun _ hkid => hkid
    | queued | holding | missedTwice =>
      simp only [goFrom] at h
      split_ifs at h <;> cases h <;> exact hset k _ _ hk fun _ hkid => hkid
    | missed kid =>
      cases h
      refine hset k _ _ hk fun kid' hkid => ?_
      split at hkid <;> exact hkid
    | stamped kid result => cases result <;> cases h <;> exact hset k _ _ hk fun _ hkid => hkid
    | passed | fetched | ended =>
      cases h
      exact hset k _ _ hk fun _ hkid => hkid
    | fetching | answered | dropped => cases h

/-! ### What is bounded -/

/-- What is not listed by the last document that was fetched is told unknown, and nothing else. -/
theorem unlisted_iff (installed : List (List (Jwk μ))) (kid : Text) :
    Unlisted fromJwk installed kid ↔ ∃ doc, installed.head? = some doc ∧ ¬Lists fromJwk doc kid := by
  constructor
  · rintro ⟨newer, doc, older, rfl, hdoc, hnewer⟩
    cases newer with
    | nil => exact ⟨doc, rfl, hdoc⟩
    | cons d newer => exact ⟨d, rfl, hnewer d List.mem_cons_self⟩
  · rintro ⟨doc, hdoc, hl⟩
    obtain ⟨older, rfl⟩ := List.head?_eq_some_iff.1 hdoc
    exact ⟨[], doc, older, rfl, hl, nofun⟩

theorem go_eq {s : Cache μ κ} {c : ℕ} {st : Stage μ κ} (hc : s.calls[c]? = some st) :
    p.step fromJwk s (.go c) = p.goFrom fromJwk s c st := by
  show s.calls[c]?.bind _ = _
  rw [hc, Option.bind_some]

theorem at_calls {s : Cache μ κ} {c : ℕ} {st : Stage μ κ} (hc : c < s.calls.length) : (s.at c st).calls[c]? = some st :=
  List.getElem?_set_self hc

theorem at_at (s : Cache μ κ) (c : ℕ) (st st' : Stage μ κ) : (s.at c st).at c st' = s.at c st' := by
  unfold Cache.at
  rw [List.set_set]

/-- Nothing holds a call up where the guard is free and the floor has elapsed. -/
theorem Inv.unblocked {s : Cache μ κ} (h : p.Inv fromJwk s) (hfree : s.refreshing = none)
    (hfloor : ∀ e ∈ s.lastEnd, e.time + p.floor s.consecutiveFailures ≤ s.now) {c : ℕ} {kid : Text}
    (hc : s.calls[c]? = some (.entering kid)) (hmiss : s.keys.lookup kid = none) :
    ∃ s', Runs.run (p.step fromJwk) s (List.replicate 5 (.go c)) = some s' ∧ s'.calls[c]? = some (.fetching kid s.now) := by
  have hsoon : p.tooSoon s = false := by
    unfold tooSoon
    cases hdone : s.completedAt with
    | none => rfl
    | some t =>
      obtain ⟨e, he, hle⟩ := h.ends t hdone
      have hlong := hfloor e he
      exact decide_eq_false (by omega)
  have hlt : c < s.calls.length := (List.getElem?_eq_some_iff.1 hc).1
  -- the five stages, from the first look to the fetch
  have hlook : p.step fromJwk s (.go c) = some (s.at c (.missed kid)) := by
    rw [go_eq hc]
    simp only [goFrom, hmiss]
  have hcheck : p.step fromJwk (s.at c (.missed kid)) (.go c) = some ((s.at c (.missed kid)).at c (.passed kid)) := by
    rw [go_eq (at_calls hlt)]
    have hsame : p.tooSoon (s.at c (.missed kid)) = false := hsoon
    simp only [goFrom, hsame, Bool.false_eq_true, if_false]
  rw [at_at] at hcheck
  have hsnap : p.step fromJwk (s.at c (.passed kid)) (.go c) = some (s.at c (.queued kid s.refreshesCompleted)) := by
    rw [go_eq (at_calls hlt)]
    exact congrArg some (at_at s c _ _)
  have htake : p.step fromJwk (s.at c (.queued kid s.refreshesCompleted)) (.go c) =
      some { s.at c (.holding kid s.refreshesCompleted) with refreshing := some c } := by
    rw [go_eq (at_calls hlt)]
    exact (if_pos hfree).trans (congrArg (fun t : Cache μ κ => some { t with refreshing := some c }) (at_at s c _ _))
  have hfetch : p.step fromJwk { s.at c (.holding kid s.refreshesCompleted) with refreshing := some c } (.go c) =
      some { s.at c (.fetching kid s.now) with
        refreshing := some c, starts := ⟨s.now, p.floor s.consecutiveFailures, s.lastEnd⟩ :: s.starts } := by
    have hheld : ({ s.at c (.holding kid s.refreshesCompleted) with refreshing := some c } : Cache μ κ).calls[c]? =
        some (.holding kid s.refreshesCompleted) := at_calls hlt
    rw [go_eq hheld]
    refine (if_neg ?_).trans (congrArg (fun t : Cache μ κ => some { t with
      refreshing := some c, starts := ⟨s.now, p.floor s.consecutiveFailures, s.lastEnd⟩ :: s.starts }) (at_at s c _ _))
    rintro (hne | hsoon')
    · exact hne rfl
    · have hsame : p.tooSoon s = true := hsoon'
      rw [hsoon] at hsame
      cases hsame
  refine ⟨_, Runs.run_cons.2 ⟨_, hlook, Runs.run_cons.2 ⟨_, hcheck, Runs.run_cons.2 ⟨_, hsnap, Runs.run_cons.2
    ⟨_, htake, Runs.run_cons.2 ⟨_, hfetch, rfl⟩⟩⟩⟩⟩, ?_⟩
  exact at_calls hlt

/-- The stage of a call that starts a fetch, and of one that tells a key id unknown. -/
inductive Recorded (p : JwksPolicy) (s : Cache μ κ) : Stage μ κ → Cache μ κ → Prop where
  | start {kid : Text} {generation : ℕ} {s' : Cache μ κ} (hgen : s.refreshesCompleted = generation)
      (hsoon : p.tooSoon s = false)
      (hstarts : s'.starts = ⟨s.now, p.floor s.consecutiveFailures, s.lastEnd⟩ :: s.starts)
      (hunknowns : s'.unknowns = s.unknowns) : Recorded p s (.holding kid generation) s'
  | unknown {kid : Text} {s' : Cache μ κ} (hzero : s.consecutiveFailures = 0) (hstarts : s'.starts = s.starts)
      (hunknowns : s'.unknowns = (kid, s.installed) :: s.unknowns) : Recorded p s (.missedTwice kid) s'

/-- **What is recorded by a step**: nothing, or a fetch that starts, or a key id that is told unknown. -/
theorem step_records {s s' : Cache μ κ} {a : JwksAct μ} (h : p.step fromJwk s a = some s') :
    s'.starts = s.starts ∧ s'.unknowns = s.unknowns ∨
      ∃ c st, a = .go c ∧ s.calls[c]? = some st ∧ p.Recorded s st s' := by
  cases a with
  | pass d =>
    simp only [step] at h
    split_ifs at h
    cases h
    exact .inl ⟨rfl, rfl⟩
  | call kid =>
    cases h
    exact .inl ⟨rfl, rfl⟩
  | fetch c outcome =>
    simp only [step] at h
    split at h
    · cases outcome <;> cases h <;> exact .inl ⟨rfl, rfl⟩
    · cases h
  | drop c =>
    obtain ⟨st, -, h⟩ := Option.bind_eq_some_iff.1 h
    cases st <;> cases h <;> exact .inl ⟨rfl, rfl⟩
  | go c =>
    obtain ⟨st, hc, h⟩ := Option.bind_eq_some_iff.1 h
    cases st with
    | entering kid =>
      simp only [goFrom] at h
      split at h <;> cases h <;> exact .inl ⟨rfl, rfl⟩
    | looking kid =>
      simp only [goFrom] at h
      split at h <;> cases h <;> exact .inl ⟨rfl, rfl⟩
    | queued kid g =>
      simp only [goFrom] at h
      split_ifs at h
      cases h
      exact .inl ⟨rfl, rfl⟩
    | holding kid g =>
      simp only [goFrom] at h
      split_ifs at h with hride
      · cases h
        exact .inl ⟨rfl, rfl⟩
      · cases h
        rw [not_or, not_not, Bool.not_eq_true] at hride
        exact .inr ⟨c, _, rfl, hc, .start hride.1 hride.2 rfl rfl⟩
    | missedTwice kid =>
      simp only [goFrom] at h
      split_ifs at h with hfail
      · cases h
        exact .inl ⟨rfl, rfl⟩
      · cases h
        exact .inr ⟨c, _, rfl, hc, .unknown (Nat.eq_zero_of_not_pos hfail) rfl rfl⟩
    | stamped kid result =>
      cases result <;> cases h <;> exact .inl ⟨rfl, rfl⟩
    | missed | passed | fetched | ended =>
      cases h
      exact .inl ⟨rfl, rfl⟩
    | fetching | answered | dropped => cases h

/-- What is bounded besides what holds in every run. -/
structure Records (p : JwksPolicy) (fromJwk : Jwk μ → Option κ) (s : Cache μ κ) : Prop extends p.Inv fromJwk s where
  paced : ∀ f ∈ s.starts, ∀ e ∈ f.previous, e.time + f.floor ≤ f.time
  unknown : ∀ u ∈ s.unknowns, Unlisted fromJwk u.2 u.1

theorem Records.bounded {s : Cache μ κ} (h : p.Records fromJwk s) : p.Bounded fromJwk s where
  single c c' st st' hc hc' hst hst' := by
    have hguard : ∀ (k : ℕ) (x : Stage μ κ), s.calls[k]? = some x → x.fetches → s.refreshing = some k := by
      intro k x hk hx
      refine (h.guard k).2 ⟨x, hk, ?_⟩
      cases x <;> first | rfl | cases hx
    exact Option.some.inj ((hguard c st hc hst).symm.trans (hguard c' st' hc' hst'))
  paced := h.paced
  unknown := h.unknown
  held c hc := by
    obtain ⟨st, hst, hholds⟩ := (h.guard c).1 hc
    refine ⟨st, hst, hholds, ?_⟩
    have hin := h.stages c st hst
    cases st <;> first | exact hin | trivial
  unblocked hfree hfloor _ _ hc hmiss := h.toInv.unblocked hfree hfloor hc hmiss

/-- A fetch that starts is behind the floor exactly when it is patient. -/
theorem Inv.paced_iff {s : Cache μ κ} (h : p.Inv fromJwk s) (hsoon : p.tooSoon s = false) :
    (∀ e ∈ s.lastEnd, e.time + p.floor s.consecutiveFailures ≤ s.now) ↔
      ∀ t, s.lastEnd = some (.abandoned t) → t + p.floor s.consecutiveFailures ≤ s.now := by
  refine ⟨fun hall t ht => hall _ ht, fun hab e he => ?_⟩
  cases e with
  | abandoned t => exact hab t he
  | completed t =>
    have hle := h.past _ he
    unfold tooSoon at hsoon
    rw [h.completed t he] at hsoon
    have hlong := of_decide_eq_false hsoon
    simp only [End.time] at hle ⊢
    omega

/-- A key id is told unknown rightly exactly when it is still missing. -/
theorem Inv.unlisted_iff {s : Cache μ κ} (h : p.Inv fromJwk s) (hdone : s.completedAt.isSome)
    (hzero : s.consecutiveFailures = 0) (kid : Text) :
    Unlisted fromJwk s.installed kid ↔ s.keys.lookup kid = none := by
  obtain ⟨doc, rest, hinst⟩ := List.exists_cons_of_ne_nil (h.success hdone hzero)
  have hkeys : s.keys = importKeys fromJwk doc := by
    rw [h.keys, hinst]
    rfl
  rw [JwksPolicy.unlisted_iff, hinst, hkeys]
  unfold Lists
  rw [Option.not_isSome_iff_eq_none.symm]
  exact ⟨fun ⟨d, hd, hl⟩ => Option.some.inj hd ▸ hl, fun hl => ⟨doc, rfl, hl⟩⟩

theorem Records.step {s s' : Cache μ κ} (h : p.Records fromJwk s) {a : JwksAct μ} (hgood : p.Patient s a)
    (hstep : p.step fromJwk s a = some s') : p.Records fromJwk s' := by
  refine ⟨h.toInv.step hstep, ?_, ?_⟩ <;>
    rcases step_records hstep with ⟨hstarts, hunknowns⟩ | ⟨c, st, rfl, hc, ⟨hgen, hsoon, hstarts, hunknowns⟩ |
      ⟨hzero, hstarts, hunknowns⟩⟩
  · exact hstarts ▸ h.paced
  · rw [hstarts]
    intro f hf
    rcases List.mem_cons.1 hf with rfl | hf
    · exact (h.toInv.paced_iff hsoon).2 (hgood _ hc hgen hsoon)
    · exact h.paced f hf
  · exact hstarts ▸ h.paced
  · exact hunknowns ▸ h.unknown
  · exact hunknowns ▸ h.unknown
  · rw [hunknowns]
    intro u hu
    rcases List.mem_cons.1 hu with rfl | hu
    · exact (h.toInv.unlisted_iff (h.stages c _ hc) hzero _).2 (hgood _ hc hzero)
    · exact h.unknown u hu

/-- **Single flight, bounded**, in every state of a run, in exactly the patient runs. -/
theorem bounded_iff (p : JwksPolicy) (fromJwk : Jwk μ → Option κ) (acts : List (JwksAct μ)) :
    Runs.Always (p.step fromJwk) (p.Bounded fromJwk) JwksPolicy.start acts ↔
      Runs.Careful (p.step fromJwk) p.Patient JwksPolicy.start acts := by
  refine Runs.always_iff_careful (I := p.Records fromJwk) (fun s a s' h hgood hstep => h.step hgood hstep)
    (fun s h => h.bounded) ?_ ⟨Inv.start, nofun, nofun⟩
  intro s a s' h hbad hstep hb
  cases a with
  | go c =>
    refine hbad fun st hc => ?_
    rw [go_eq hc] at hstep
    cases st with
    | holding kid generation =>
      intro hgen hsoon
      have hfetch : s'.starts = ⟨s.now, p.floor s.consecutiveFailures, s.lastEnd⟩ :: s.starts := by
        simp only [goFrom, hgen, hsoon, ne_eq, not_true, Bool.false_eq_true, or_false, if_false] at hstep
        cases hstep
        rfl
      exact (h.toInv.paced_iff hsoon).1 (hb.paced _ (hfetch ▸ List.mem_cons_self))
    | missedTwice kid =>
      intro hzero
      have htold : s'.unknowns = (kid, s.installed) :: s.unknowns := by
        simp only [goFrom, hzero, Nat.lt_irrefl, if_false] at hstep
        cases hstep
        rfl
      exact (h.toInv.unlisted_iff (h.stages c _ hc) hzero kid).1 (hb.unknown _ (htold ▸ List.mem_cons_self))
    | _ => trivial
  | _ => exact hbad trivial

/-- A call misses and fetches, and its future is dropped; the next one fetches at once. -/
def droppedInFetch : List (JwksAct Unit) :=
  .call "k1".toList :: List.replicate 5 (.go 0) ++ .drop 0 :: .call "k1".toList :: List.replicate 5 (.go 1)

/-- A cache with the durations of `JwksCache::new`, in milliseconds. -/
def usual : JwksPolicy := ⟨60000, 1000, 5000⟩

theorem fetch_behind_a_drop :
    ¬Runs.Always (usual.step fun _ : Jwk Unit => some ()) (usual.Bounded fun _ => some ()) JwksPolicy.start droppedInFetch := by
  intro h
  have hrun : (Runs.run (usual.step fun _ : Jwk Unit => some ()) JwksPolicy.start droppedInFetch).map
      (fun s : Cache Unit Unit => s.starts) =
        some [⟨0, 60000, some (.abandoned 0)⟩, ⟨0, 60000, none⟩] := by
    decide +kernel
  obtain ⟨s, hs, hstarts⟩ := Option.map_eq_some_iff.1 hrun
  have hpaced := (h.last hs).paced ⟨0, 60000, some (.abandoned 0)⟩ (hstarts ▸ List.mem_cons_self) (.abandoned 0) rfl
  exact absurd hpaced (by decide)

end JwksPolicy

end Latiq.Auth
