import Latiq.EngineDuckdb.Exec
import Mathlib.Algebra.GroupWithZero.Nat

/-!
# The streamed read

`read_arrow_local`: a blocking task runs the engine and hands its batches to the
caller's stream through a bounded channel (`ChannelSink`). The task, the channel,
the operation's token and the consumer are one system here; which of them moves
next, and how fast, is in the list of labels of a run.

## The model

* `Producer` — where the task is: in the loop of `run_read_arrow`, in the sink, in
  the `COMMIT` of the read bracket, or handing over its error. Each carries the
  batches that are not in the channel.
* `Sys.step` — one step. A party that waits has no step.
* `Label.closesShort` — the steps that end the task, drop the sender and leave
  neither the rest of the rows nor an error in the channel.

## What is proved

* `leaves_loop` — the loop here is left as the loop of `run_read_arrow` is, on what it
  met (`takeBatches`).
* `books_of_step` — what each step does to the rows.
* `step_account`, `run_account` — **the account of the rows**: what was received,
  what is in the channel and what the producer still has is the result, until the
  sender is dropped.
* `collectStream_ok` — what `collect_stream` returns.
* `stream_whole_iff` — a consumer that sees the stream end has the whole result or
  an error, exactly when no step of the run closed the stream short.
* `stream_ends_short` — a full channel and a cancelled token.
-/

namespace Latiq.AgentCore

open SqlLex (Text)
open Unwind (Ended)
open Latiq.EngineDuckdb (EngineError BatchStep takeBatches Duck)

/-! ### What the consumer gets -/

/-- `AgentError`, as far as a streamed read makes it. -/
inductive AgentError where
  | queryTimeout
  | ofEngine (e : EngineError)
  | internal (message : Text)
  | resultCapExceeded (cap : ℕ)
  deriving DecidableEq, Repr

/-- `Deadline::classify`: only the deadline can tell its own expiry from somebody's cancel. -/
def classify (expired : Bool) (e : EngineError) : AgentError :=
  if e = .cancelled ∧ expired then .queryTimeout else .ofEngine e

/-- An item of the batch stream: the rows of a batch, or an error. -/
abbrev Item (α : Type) : Type := Except AgentError (List α)

/-- The rows among some items. -/
def rowsOf {α : Type} (items : List (Item α)) : List α :=
  items.flatMap fun
    | .ok b => b
    | .error _ => []

/-- Whether there is an error among them. -/
def hasError {α : Type} (items : List (Item α)) : Bool :=
  items.any fun
    | .ok _ => false
    | .error _ => true

@[simp] theorem rowsOf_nil {α : Type} : rowsOf ([] : List (Item α)) = [] := rfl

@[simp] theorem rowsOf_append {α : Type} (xs ys : List (Item α)) : rowsOf (xs ++ ys) = rowsOf xs ++ rowsOf ys :=
  List.flatMap_append

@[simp] theorem rowsOf_ok {α : Type} (b : List α) : rowsOf [.ok b] = b := List.append_nil b

@[simp] theorem rowsOf_error {α : Type} (e : AgentError) : rowsOf [(.error e : Item α)] = [] := rfl

@[simp] theorem hasError_nil {α : Type} : hasError ([] : List (Item α)) = false := rfl

@[simp] theorem hasError_append {α : Type} (xs ys : List (Item α)) :
    hasError (xs ++ ys) = (hasError xs || hasError ys) := List.any_append

@[simp] theorem hasError_ok {α : Type} (b : List α) : hasError [(.ok b : Item α)] = false := rfl

@[simp] theorem hasError_error {α : Type} (e : AgentError) : hasError [(.error e : Item α)] = true := rfl

/-! ### The system -/

/-- Where the producer task is. `rest` are the batches that are not in the channel. -/
inductive Producer (α : Type) where
  /-- The engine has not given the schema. -/
  | starting
  /-- At the head of the loop. -/
  | fetching (rest : List (List α))
  /-- In `send_batch`, with a batch. -/
  | sending (b : List α) (rest : List (List α))
  /-- The loop is left without an error, and the read bracket commits. -/
  | committing (rest : List (List α))
  /-- The engine returned an error, and the task hands it over. -/
  | failing (e : EngineError) (rest : List (List α))
  /-- The task is over, and the sender dropped. -/
  | done
  deriving DecidableEq, Repr

/-- The task, the channels, the token and the consumer. -/
structure Sys (α : Type) where
  producer : Producer α
  /-- What the loop of the engine met so far. -/
  met : List BatchStep
  /-- What was sent on the schema channel. -/
  schema : Option (Except AgentError Unit)
  /-- The batch channel. -/
  queue : List (Item α)
  cancelled : Bool
  expired : Bool
  /-- Whether the consumer holds the stream. -/
  listening : Bool
  received : List (Item α)
  /-- The consumer has seen the stream end. -/
  ended : Bool
  deriving DecidableEq, Repr

/-- A step of one of the parties. -/
inductive Label where
  /-- The engine gives the schema. -/
  | schema
  /-- The engine fails before it has a schema. -/
  | startFails (e : EngineError)
  /-- The loop goes on to its next batch, or to its end. -/
  | fetch
  /-- `send_batch` returns. -/
  | send
  /-- The `COMMIT` of the read bracket succeeds. -/
  | commits
  /-- It fails. -/
  | commitFails (e : EngineError)
  /-- `send_batch` returns with the error. -/
  | fail
  /-- The task panics. -/
  | panic
  /-- The token is cancelled: by the caller, or because the pond is dropped. -/
  | cancel
  /-- The deadline fires the token. -/
  | expire
  /-- The consumer takes the next item, or sees the end. -/
  | next
  /-- The consumer drops the stream. -/
  | leave
  deriving DecidableEq, Repr

/-- `mpsc::channel(4)`. -/
def channelCapacity : ℕ := 4

/-- The operation is registered, and nothing has happened. -/
def Sys.start {α : Type} : Sys α := ⟨.starting, [], none, [], false, false, true, [], false⟩

def noSchemaMessage : Text := "arrow read produced no schema".toList

namespace Sys

variable {α : Type}

/-- `send_batch` can put an item into the channel. -/
def hasRoom (s : Sys α) : Bool := decide (s.queue.length < channelCapacity)

/-- One step; `none` where the party waits, or has none to make. -/
def step (batches : List (List α)) (s : Sys α) : Label → Option (Sys α)
  | .schema =>
    match s.producer with
    | .starting =>
      if s.listening then some { s with producer := .fetching batches, schema := some (.ok ()) }
      else some { s with producer := .committing batches }
    | _ => none
  | .startFails e =>
    match s.producer with
    | .starting => some { s with producer := .done, schema := some (.error (classify s.expired e)) }
    | _ => none
  | .fetch =>
    match s.producer with
    | .fetching [] => some { s with producer := .committing [] }
    | .fetching (b :: rest) =>
      if s.cancelled then some { s with producer := .failing .cancelled (b :: rest), met := s.met ++ [.cancelled] }
      else some { s with producer := .sending b rest }
    | _ => none
  | .send =>
    match s.producer with
    | .sending b rest =>
      -- The select is biased: a closed channel and one with room come before the token.
      if s.listening = false then
        some { s with producer := .committing (b :: rest), met := s.met ++ [.taken b.length true] }
      else if s.hasRoom then
        some { s with producer := .fetching rest, met := s.met ++ [.taken b.length false], queue := s.queue ++ [.ok b] }
      else if s.cancelled then
        some { s with producer := .committing (b :: rest), met := s.met ++ [.taken b.length true] }
      else none
    | _ => none
  | .commits =>
    match s.producer with
    | .committing _ => some { s with producer := .done }
    | _ => none
  | .commitFails e =>
    match s.producer with
    | .committing rest => some { s with producer := .failing e rest }
    | _ => none
  | .fail =>
    match s.producer with
    | .failing e _ =>
      if s.listening = false then some { s with producer := .done }
      else if s.hasRoom then
        some { s with producer := .done, queue := s.queue ++ [.error (classify s.expired e)] }
      else if s.cancelled then some { s with producer := .done }
      else none
    | _ => none
  | .panic =>
    match s.producer with
    | .starting => some { s with producer := .done, schema := some (.error (.internal noSchemaMessage)) }
    | .fetching _ | .sending _ _ => some { s with producer := .done, met := s.met ++ [.unwinds] }
    | .committing _ | .failing _ _ => some { s with producer := .done }
    | .done => none
  | .cancel => some { s with cancelled := true }
  | .expire => some { s with expired := true, cancelled := true }
  | .next =>
    if s.listening = false ∨ s.ended = true then none
    else
      match s.queue with
      | x :: queue => some { s with queue, received := s.received ++ [x] }
      | [] =>
        match s.producer, s.schema with
        | .done, some (.ok _) => some { s with ended := true }
        | _, _ => none
  | .leave => some { s with listening := false }

/-- The state behind a run. -/
def run (batches : List (List α)) (s : Sys α) : List Label → Option (Sys α)
  | [] => some s
  | l :: ls => (s.step batches l).bind fun s' => s'.run batches ls

/-- The batches the producer has not put into the channel. -/
def missing (batches : List (List α)) (s : Sys α) : List (List α) :=
  match s.producer with
  | .starting => batches
  | .fetching rest | .committing rest | .failing _ rest => rest
  | .sending b rest => b :: rest
  | .done => []

end Sys

/-- The step drops the sender, while somebody listens and rows are missing, and leaves no error in the
channel: the bracket commits although the sink gave a batch up, or the error is given up because the channel
is full and the token cancelled, or the task panics. -/
def Label.closesShort {α : Type} (batches : List (List α)) (s : Sys α) (l : Label) : Bool :=
  s.listening && !(s.missing batches).flatten.isEmpty &&
    match l, s.producer with
    | .commits, .committing _ => true
    | .fail, .failing _ _ => !s.hasRoom && s.cancelled
    | .panic, .starting => false
    | .panic, _ => true
    | _, _ => false

/-- No step of the run closes the stream short. -/
def Sys.careful {α : Type} (batches : List (List α)) (s : Sys α) : List Label → Bool
  | [] => true
  | l :: ls =>
    !l.closesShort batches s &&
      match s.step batches l with
      | none => true
      | some s' => s'.careful batches ls

/-! ### The account of the rows -/

namespace Sys

variable {α : Type} {batches : List (List α)}

/-- What went into the channel, in order. -/
def sent (s : Sys α) : List (Item α) := s.received ++ s.queue

/-- There is an error among the items, or they hold every row. -/
def Full (batches : List (List α)) (items : List (Item α)) : Prop :=
  hasError items = true ∨ rowsOf items = batches.flatten

/-- The account, where `careful` says whether the steps so far were. -/
structure Account (batches : List (List α)) (careful : Bool) (s : Sys α) : Prop where
  /-- While the sender is there, nothing is lost. -/
  running : s.producer ≠ .done → careful = true ∧ s.ended = false ∧ hasError s.sent = false ∧
    rowsOf s.sent ++ (s.missing batches).flatten = batches.flatten
  /-- When it was dropped under a listening consumer, the channel has everything, or an error. -/
  closed : s.producer = .done → s.listening = true → s.schema = some (.ok ()) → (careful = true ↔ Full batches s.sent)
  /-- And so it has reached the consumer at the end. -/
  atEnd : s.ended = true → (careful = true ↔ Full batches s.received)

/-- A state in which the sender is still there. -/
theorem Account.of_running {s : Sys α} (hp : s.producer ≠ .done) (he : s.ended = false) (herr : hasError s.sent = false)
    (hrows : rowsOf s.sent ++ (s.missing batches).flatten = batches.flatten) : Account batches true s where
  running _ := ⟨rfl, he, herr, hrows⟩
  closed h := absurd h hp
  atEnd h := by
    rw [he] at h
    cases h

/-- A state in which it has just been dropped. -/
theorem Account.of_closed {s : Sys α} {c : Bool} (hp : s.producer = .done) (he : s.ended = false)
    (h : s.listening = true → s.schema = some (.ok ()) → (c = true ↔ Full batches s.sent)) : Account batches c s where
  running h := absurd hp h
  closed _ := h
  atEnd h := by
    rw [he] at h
    cases h

theorem account_start : Account batches true (Sys.start : Sys α) := by
  apply Account.of_running
  · intro h
    cases h
  · rfl
  · rfl
  · rfl

/-- The rows are all there, or there is an error. -/
theorem full_iff {s : Sys α} (herr : hasError s.sent = false)
    (hrows : rowsOf s.sent ++ (s.missing batches).flatten = batches.flatten) :
    Full batches s.sent ↔ (s.missing batches).flatten.isEmpty = true := by
  rw [Full, herr, List.isEmpty_iff]
  constructor
  · rintro (h | h)
    · cases h
    · rw [h] at hrows
      exact List.append_right_eq_self.1 hrows
  · intro h
    right
    rw [← hrows, h, List.append_nil]

/-- The task ends without an error in the channel. -/
theorem Account.drop {s : Sys α} {c : Bool} (h : Account batches c s) (hp : s.producer ≠ .done) (met : List BatchStep) :
    Account batches (c && !(s.listening && !(s.missing batches).flatten.isEmpty))
      { s with producer := .done, met } := by
  obtain ⟨rfl, he, herr, hrows⟩ := h.running hp
  apply Account.of_closed
  · rfl
  · exact he
  · intro hl _
    have hl' : s.listening = true := hl
    rw [hl', Bool.true_and, Bool.true_and, Bool.not_not]
    exact (full_iff herr hrows).symm

/-- What a step does to the account, and whether it closes the stream short. -/
inductive Books (batches : List (List α)) (s : Sys α) : Bool → Sys α → Prop where
  /-- The producer goes on, and no row is lost. -/
  | goesOn {s' : Sys α} (hp : s.producer ≠ .done) (hp' : s'.producer ≠ .done) (he : s'.ended = s.ended)
    (herr : hasError s'.sent = hasError s.sent)
    (hrows : rowsOf s'.sent ++ (s'.missing batches).flatten = rowsOf s.sent ++ (s.missing batches).flatten) :
    Books batches s false s'
  /-- The task ends without a schema. -/
  | noSchema (hp : s.producer ≠ .done) (e : AgentError) :
    Books batches s false { s with producer := .done, schema := some (.error e) }
  /-- It ends without an error in the channel. -/
  | drops (hp : s.producer ≠ .done) (met : List BatchStep) :
    Books batches s (s.listening && !(s.missing batches).flatten.isEmpty) { s with producer := .done, met }
  | handsOver (hp : s.producer ≠ .done) (e : AgentError) :
    Books batches s false { s with producer := .done, queue := s.queue ++ [.error e] }
  /-- Somebody outside the channel moves. -/
  | around (cancelled expired listening : Bool) (hl : listening = true → s.listening = true) :
    Books batches s false { s with cancelled, expired, listening }
  /-- An item goes from the channel to the consumer. -/
  | takes {x : Item α} {queue : List (Item α)} (he : s.ended = false) (hq : s.queue = x :: queue) :
    Books batches s false { s with queue, received := s.received ++ [x] }
  | ends (hl : s.listening = true) (hq : s.queue = []) (hp : s.producer = .done) (hsc : s.schema = some (.ok ())) :
    Books batches s false { s with ended := true }

/-- The producer goes on, and nothing comes into the channel. -/
theorem Books.of_missing {s s' : Sys α} (hp : s.producer ≠ .done) (hp' : s'.producer ≠ .done) (he : s'.ended = s.ended)
    (hsent : s'.sent = s.sent) (hmissing : s'.missing batches = s.missing batches) : s.Books batches false s' :=
  .goesOn hp hp' he (by rw [hsent]) (by rw [hsent, hmissing])

/-- Every step keeps its books. -/
theorem books_of_step {s s' : Sys α} {l : Label} (hs : s.step batches l = some s') :
    s.Books batches (l.closesShort batches s) s' := by
  cases l with
  | schema =>
    rw [show Label.schema.closesShort batches s = false by simp [Label.closesShort]]
    simp only [step] at hs
    split at hs
    · rename_i hp
      have hmissing : s.missing batches = batches := by rw [missing, hp]
      split at hs
      · cases hs
        exact .of_missing (by simp [hp]) (by simp) rfl rfl hmissing.symm
      · cases hs
        exact .of_missing (by simp [hp]) (by simp) rfl rfl hmissing.symm
    · cases hs
  | startFails e =>
    rw [show (Label.startFails e).closesShort batches s = false by simp [Label.closesShort]]
    simp only [step] at hs
    split at hs
    · rename_i hp
      cases hs
      exact .noSchema (by simp [hp]) _
    · cases hs
  | fetch =>
    rw [show Label.fetch.closesShort batches s = false by simp [Label.closesShort]]
    simp only [step] at hs
    split at hs
    · rename_i hp
      have hmissing : s.missing batches = [] := by rw [missing, hp]
      cases hs
      exact .of_missing (by simp [hp]) (by simp) rfl rfl hmissing.symm
    · rename_i b rest hp
      have hmissing : s.missing batches = b :: rest := by rw [missing, hp]
      split at hs
      · cases hs
        exact .of_missing (by simp [hp]) (by simp) rfl rfl hmissing.symm
      · cases hs
        exact .of_missing (by simp [hp]) (by simp) rfl rfl hmissing.symm
    · cases hs
  | send =>
    rw [show Label.send.closesShort batches s = false by simp [Label.closesShort]]
    simp only [step] at hs
    split at hs
    · rename_i b rest hp
      have hmissing : s.missing batches = b :: rest := by rw [missing, hp]
      split at hs
      · cases hs
        exact .of_missing (by simp [hp]) (by simp) rfl rfl hmissing.symm
      · split at hs
        · -- The batch goes from the producer into the channel.
          cases hs
          refine .goesOn (by simp [hp]) (by simp) rfl ?_ ?_
          · rw [sent, ← List.append_assoc, hasError_append, hasError_ok, Bool.or_false]
            rfl
          · rw [hmissing, sent, ← List.append_assoc, rowsOf_append, rowsOf_ok, List.append_assoc]
            rfl
        · split at hs
          · cases hs
            exact .of_missing (by simp [hp]) (by simp) rfl rfl hmissing.symm
          · cases hs
    · cases hs
  | commits =>
    simp only [step] at hs
    split at hs
    · rename_i rest hp
      cases hs
      have hdrops : s.Books batches (s.listening && !(s.missing batches).flatten.isEmpty) { s with producer := .done } :=
        .drops (by simp [hp]) s.met
      simpa [Label.closesShort, hp] using hdrops
    · cases hs
  | commitFails e =>
    rw [show (Label.commitFails e).closesShort batches s = false by simp [Label.closesShort]]
    simp only [step] at hs
    split at hs
    · rename_i rest hp
      have hmissing : s.missing batches = rest := by rw [missing, hp]
      cases hs
      exact .of_missing (by simp [hp]) (by simp) rfl rfl hmissing.symm
    · cases hs
  | fail =>
    simp only [step] at hs
    split at hs
    · rename_i e rest hp
      have hdrops : s.Books batches (s.listening && !(s.missing batches).flatten.isEmpty) { s with producer := .done } :=
        .drops (by simp [hp]) s.met
      split at hs
      · rename_i hl
        cases hs
        simpa [Label.closesShort, hp, hl] using hdrops
      · split at hs
        · rename_i hroom
          cases hs
          rw [show Label.fail.closesShort batches s = false by simp [Label.closesShort, hp, hroom]]
          exact .handsOver (by simp [hp]) _
        · rename_i hroom
          split at hs
          · rename_i hcancelled
            cases hs
            simpa [Label.closesShort, hp, hroom, hcancelled] using hdrops
          · cases hs
    · cases hs
  | panic =>
    have hdrops (hp : s.producer ≠ .done) (hstart : s.producer ≠ .starting) (met : List BatchStep) :
        s.Books batches (Label.panic.closesShort batches s) { s with producer := .done, met } := by
      have hshort : Label.panic.closesShort batches s = (s.listening && !(s.missing batches).flatten.isEmpty) := by
        simp [Label.closesShort]
      rw [hshort]
      exact .drops hp met
    simp only [step] at hs
    split at hs
    · rename_i hp
      cases hs
      rw [show Label.panic.closesShort batches s = false by simp [Label.closesShort, hp]]
      exact .noSchema (by simp [hp]) _
    · rename_i rest hp
      cases hs
      exact hdrops (by simp [hp]) (by simp [hp]) _
    · rename_i b rest hp
      cases hs
      exact hdrops (by simp [hp]) (by simp [hp]) _
    · rename_i rest hp
      cases hs
      exact hdrops (by simp [hp]) (by simp [hp]) _
    · rename_i e rest hp
      cases hs
      exact hdrops (by simp [hp]) (by simp [hp]) _
    · cases hs
  | cancel =>
    rw [show Label.cancel.closesShort batches s = false by simp [Label.closesShort]]
    cases hs
    exact .around true s.expired s.listening id
  | expire =>
    rw [show Label.expire.closesShort batches s = false by simp [Label.closesShort]]
    cases hs
    exact .around true true s.listening id
  | leave =>
    rw [show Label.leave.closesShort batches s = false by simp [Label.closesShort]]
    cases hs
    exact .around s.cancelled s.expired false fun h => by cases h
  | next =>
    rw [show Label.next.closesShort batches s = false by simp [Label.closesShort]]
    simp only [step] at hs
    split at hs
    · cases hs
    · rename_i hnot
      rw [not_or, Bool.not_eq_false, Bool.not_eq_true] at hnot
      split at hs
      · rename_i x queue hq
        cases hs
        exact .takes hnot.2 hq
      · rename_i hq
        split at hs
        · rename_i u hp hsc
          cases hs
          exact .ends hnot.1 hq hp hsc
        · cases hs

/-- **One step of the account.** -/
theorem step_account {s s' : Sys α} {c : Bool} {l : Label} (h : Account batches c s) (hs : s.step batches l = some s') :
    Account batches (c && !l.closesShort batches s) s' := by
  have hbooks := books_of_step hs
  revert hbooks
  generalize l.closesShort batches s = short
  intro hbooks
  cases hbooks with
  | goesOn hp hp' he herr hrows =>
    obtain ⟨rfl, he₀, herr₀, hrows₀⟩ := h.running hp
    exact .of_running hp' (he.trans he₀) (herr.trans herr₀) (hrows.trans hrows₀)
  | noSchema hp e =>
    obtain ⟨rfl, he, -, -⟩ := h.running hp
    apply Account.of_closed
    · rfl
    · exact he
    · intro _ hsc
      cases hsc
  | drops hp met => exact h.drop hp met
  | handsOver hp e =>
    obtain ⟨rfl, he, -, -⟩ := h.running hp
    apply Account.of_closed
    · rfl
    · exact he
    · intro _ _
      refine iff_of_true rfl (.inl ?_)
      rw [sent, ← List.append_assoc, hasError_append, hasError_error, Bool.or_true]
  | around cancelled expired listening hl =>
    rw [Bool.not_false, Bool.and_true]
    exact ⟨h.running, fun hp hl' => h.closed hp (hl hl'), h.atEnd⟩
  | @takes x queue he hq =>
    rw [Bool.not_false, Bool.and_true]
    have hsent : s.sent = (s.received ++ [x]) ++ queue := by rw [sent, hq, List.append_assoc]; rfl
    refine ⟨?_, ?_, ?_⟩
    · intro hp
      have hrun := h.running hp
      rw [hsent] at hrun
      exact hrun
    · intro hp hl hsc
      have hclosed := h.closed hp hl hsc
      rw [hsent] at hclosed
      exact hclosed
    · intro hend
      rw [show s.ended = true from hend] at he
      cases he
  | ends hl hq hp hsc =>
    rw [Bool.not_false, Bool.and_true]
    have hclosed := h.closed hp hl hsc
    refine ⟨fun hne => absurd hp hne, fun _ _ _ => hclosed, fun _ => ?_⟩
    rw [sent, hq, List.append_nil] at hclosed
    exact hclosed

/-- **A whole run of the account.** -/
theorem run_account {s s' : Sys α} {c : Bool} {ls : List Label} (h : Account batches c s)
    (hs : s.run batches ls = some s') : Account batches (c && s.careful batches ls) s' := by
  induction ls generalizing s c with
  | nil =>
    cases hs
    rw [careful, Bool.and_true]
    exact h
  | cons l ls ih =>
    rw [run, Option.bind_eq_some_iff] at hs
    obtain ⟨u, hu, hs⟩ := hs
    have hstep := ih (step_account h hu) hs
    rw [careful, hu]
    rwa [Bool.and_assoc] at hstep

/-! ### The loop is the engine's loop -/

/-- The task is in the loop, and the sink has taken every batch so far. -/
def InLoop (s : Sys α) : Prop :=
  ((∃ rest, s.producer = .fetching rest) ∨ ∃ b rest, s.producer = .sending b rest) ∧
    ∃ taken : List ℕ, s.met = taken.map fun n => .taken n false

theorem takeBatches_taken (n : ℕ) (taken : List ℕ) (bs : List BatchStep) :
    takeBatches n (taken.map (fun m => .taken m false) ++ bs) = takeBatches (n + taken.sum) bs := by
  induction taken generalizing n with
  | nil => rfl
  | cons m taken ih =>
    rw [List.map_cons, List.cons_append, takeBatches, if_neg Bool.false_ne_true, ih, List.sum_cons, Nat.add_assoc]

/-- **The loop is left as `run_read_arrow` leaves it**: with its rows where it comes to its end or the sink
breaks, with `Cancelled` where the token is found cancelled at a batch, or by a panic. -/
theorem leaves_loop {s s' : Sys α} {l : Label} (h : s.InLoop) (hs : s.step batches l = some s') (d : Duck) :
    s'.InLoop ∨
      (∃ rest n, s'.producer = .committing rest ∧ takeBatches 0 s'.met d = (.ok n, d)) ∨
      (∃ rest, s'.producer = .failing .cancelled rest ∧ takeBatches 0 s'.met d = (.err .cancelled, d)) ∨
      (s'.producer = .done ∧ takeBatches 0 s'.met d = (.unwound, d)) := by
  obtain ⟨hloop, taken, htaken⟩ := h
  have hmet (b : BatchStep) : takeBatches 0 (s.met ++ [b]) d = takeBatches taken.sum [b] d := by
    rw [htaken, takeBatches_taken, Nat.zero_add]
  cases l with
  | fetch =>
    simp only [step] at hs
    split at hs
    · cases hs
      refine .inr (.inl ⟨[], taken.sum, rfl, ?_⟩)
      have hall := takeBatches_taken 0 taken []
      rw [List.append_nil, Nat.zero_add, ← htaken] at hall
      rw [hall]
      rfl
    · split at hs
      · cases hs
        exact .inr (.inr (.inl ⟨_, rfl, hmet .cancelled⟩))
      · cases hs
        exact .inl ⟨.inr ⟨_, _, rfl⟩, taken, htaken⟩
    · cases hs
  | send =>
    simp only [step] at hs
    split at hs
    · rename_i b rest hp
      split at hs
      · cases hs
        exact .inr (.inl ⟨_, _, rfl, hmet (.taken b.length true)⟩)
      · split at hs
        · cases hs
          refine .inl ⟨.inl ⟨_, rfl⟩, taken ++ [b.length], ?_⟩
          simp [htaken]
        · split at hs
          · cases hs
            exact .inr (.inl ⟨_, _, rfl, hmet (.taken b.length true)⟩)
          · cases hs
    · cases hs
  | panic =>
    have hout : s'.producer = .done ∧ s'.met = s.met ++ [.unwinds] := by
      rcases hloop with ⟨rest, hp⟩ | ⟨b, rest, hp⟩
      · simp only [step, hp] at hs
        cases hs
        exact ⟨rfl, rfl⟩
      · simp only [step, hp] at hs
        cases hs
        exact ⟨rfl, rfl⟩
    refine .inr (.inr (.inr ⟨hout.1, ?_⟩))
    rw [hout.2]
    exact hmet .unwinds
  | schema | startFails e | commits | commitFails e | fail =>
    exfalso
    rcases hloop with ⟨rest, hp⟩ | ⟨b, rest, hp⟩
    · simp [step, hp] at hs
    · simp [step, hp] at hs
  | cancel | expire | leave =>
    cases hs
    exact .inl ⟨hloop, taken, htaken⟩
  | next =>
    left
    simp only [step] at hs
    split at hs
    · cases hs
    · split at hs
      · cases hs
        exact ⟨hloop, taken, htaken⟩
      · split at hs
        · cases hs
          exact ⟨hloop, taken, htaken⟩
        · cases hs

end Sys

/-! ### Collecting -/

section

variable {α β : Type}

/-- The loop of `collect_stream` over what the stream yields until its end, with the rows so far. `row` is
the conversion of one row (`append_batch_rows`). -/
def collectFrom (row : α → Except AgentError β) (cap : ℕ) (rows : List β) : List (Item α) → Except AgentError (List β)
  | [] => .ok rows
  | .error e :: _ => .error e
  | .ok b :: items =>
    match b.mapM row with
    | .error e => .error e
    | .ok new => if cap < (rows ++ new).length then .error (.resultCapExceeded cap) else collectFrom row cap (rows ++ new) items

/-- `collect_stream`. -/
def collectStream (row : α → Except AgentError β) (cap : ℕ) (items : List (Item α)) : Except AgentError (List β) :=
  collectFrom row cap [] items

theorem collectFrom_ok {row : α → Except AgentError β} {cap : ℕ} {rows out : List β} {items : List (Item α)}
    (h : collectFrom row cap rows items = .ok out) :
    hasError items = false ∧ ∃ new, (rowsOf items).mapM row = .ok new ∧ out = rows ++ new := by
  induction items generalizing rows with
  | nil =>
    cases h
    exact ⟨rfl, [], rfl, (List.append_nil _).symm⟩
  | cons x items ih =>
    cases x with
    | error e => cases h
    | ok b =>
      rw [collectFrom] at h
      cases hb : b.mapM row with
      | error e =>
        simp only [hb] at h
        cases h
      | ok new =>
        simp only [hb] at h
        split at h
        · cases h
        · obtain ⟨herr, new', hnew', rfl⟩ := ih h
          refine ⟨herr, new ++ new', ?_, by rw [List.append_assoc]⟩
          have hsplit : rowsOf (.ok b :: items) = b ++ rowsOf items := rfl
          rw [hsplit, List.mapM_append, hb]
          show (do let ys ← (rowsOf items).mapM row; pure (new ++ ys)) = Except.ok (new ++ new')
          rw [hnew']
          rfl

/-- **Collecting** succeeds on no error only, with every row that was received. -/
theorem collectStream_ok {row : α → Except AgentError β} {cap : ℕ} {items : List (Item α)} {out : List β}
    (h : collectStream row cap items = .ok out) : hasError items = false ∧ (rowsOf items).mapM row = .ok out := by
  obtain ⟨herr, new, hnew, hout⟩ := collectFrom_ok h
  rw [hout, List.nil_append]
  exact ⟨herr, hnew⟩

end

/-! ### The stream -/

/-- What a stream that has ended owes: every row or an error; and what is collected from it is the
whole result. -/
def Whole {α : Type} (batches : List (List α)) (received : List (Item α)) : Prop :=
  Sys.Full batches received ∧
    ∀ (β : Type) (row : α → Except AgentError β) (cap : ℕ) (rows : List β),
      collectStream row cap received = .ok rows → batches.flatten.mapM row = .ok rows

/-- What is collected is whole where the stream is. -/
theorem whole_iff_full {α : Type} {batches : List (List α)} {received : List (Item α)} :
    Whole batches received ↔ Sys.Full batches received := by
  constructor
  · intro h
    exact h.1
  · intro h
    refine ⟨h, ?_⟩
    intro β row cap rows hrows
    obtain ⟨herr, hmap⟩ := collectStream_ok hrows
    rcases h with h | h
    · rw [herr] at h
      cases h
    · rwa [h] at hmap

/-- **The streamed read.** Whatever the result is and however it is split into batches, take any run: any
pace of the two sides, any moment at which the token is cancelled, the deadline fires, the engine fails, the
task panics. If the consumer has seen the stream end, it has every row or an error, exactly when no step of
the run closed the stream short. -/
theorem stream_whole_iff {α : Type} (batches : List (List α)) (ls : List Label) {s : Sys α}
    (h : Sys.start.run batches ls = some s) (hend : s.ended = true) :
    Whole batches s.received ↔ Sys.start.careful batches ls = true := by
  have haccount := Sys.run_account (@Sys.account_start _ batches) h
  rw [Bool.true_and] at haccount
  rw [whole_iff_full]
  exact (haccount.atEnd hend).symm

/-- The run of a result of two batches that nothing disturbs. -/
def plainRun : List Label := [.schema, .fetch, .send, .next, .fetch, .send, .fetch, .commits, .next, .next]

/-- Nothing closes the plain run short, and `stream_whole_iff` says what it delivers. -/
theorem plainRun_whole :
    ∃ s, Sys.start.run [[1, 2], [3]] plainRun = some s ∧
      (Whole [[1, 2], [3]] s.received ↔ Sys.start.careful [[1, 2], [3]] plainRun = true) :=
  ⟨_, rfl, stream_whole_iff [[1, 2], [3]] plainRun rfl rfl⟩

/-- The consumer does not read until four batches fill the channel; the token is cancelled; the sink gives
the fifth batch up, and the bracket commits. The consumer sees four rows of six, and the end. -/
def stalledRun : List Label :=
  [.schema, .fetch, .send, .fetch, .send, .fetch, .send, .fetch, .send, .fetch, .cancel, .send, .commits,
    .next, .next, .next, .next, .next]

/-- The stream ends short, and so does what is collected from it. -/
theorem stream_ends_short :
    (Sys.start.run [[1], [2], [3], [4], [5], [6]] stalledRun).map
      (fun s => (s.ended, hasError s.received, rowsOf s.received, (collectStream .ok 100 s.received : Except AgentError (List ℕ)))) =
      some (true, false, [1, 2, 3, 4], .ok [1, 2, 3, 4]) := by
  decide +kernel

end Latiq.AgentCore
