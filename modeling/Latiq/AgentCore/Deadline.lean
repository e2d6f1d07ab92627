import Latiq.AgentCore.Inflight
import Latiq.AgentCore.Ops

/-!
# Who stopped a query

A query's token can be cancelled by its deadline, by its caller, through the registry and by a drop of its pond, and the
engine reports all of them as the one `Cancelled`. `Deadline::arm` spawns one watcher for the deadline and the caller; its
timer arm stores a flag and then cancels the token, and `run_query_local` reads the flag when the engine has returned.

## The model

* `Armed` — the token, as who was the first to cancel it, the flag, the watcher, what the engine has returned and what is
  reported.
* `Armed.step` — one step of the watcher, of somebody who cancels, of the engine or of the operation.

## What is proved

* `runQueryLocal_report` — the report is what `run_query_local` returns.
* `right_cause` — the report is right where the timer runs on a live token only, and nobody comes between its two
  statements.
* `dropped_then_expired` — a drop of the pond, and the deadline behind it.
-/

namespace Latiq.AgentCore

open RustStr (Text)
open Unwind
open Latiq.Common
open Latiq.EngineDuckdb (EngineError)

/-- Who cancels a query's token. -/
inductive Canceller where
  | deadline
  | caller
  /-- `InFlightRegistry::cancel`. -/
  | registry
  /-- `begin_drop`, or a registration that finds the tombstone. -/
  | dropPond
  /-- The guard's own drop: the caller hung up. -/
  | guard
  deriving DecidableEq, Repr

/-- Where the watcher is: in its `select!`, behind the flag, or at its end. -/
inductive Watcher where
  | selecting
  | flagged
  | ended
  deriving DecidableEq, Repr

/-- A query with its deadline armed. -/
structure Armed where
  /-- Who was the first to cancel the token, if anybody has. -/
  first : Option Canceller
  expired : Bool
  /-- The caller's own token (`QueryControls::cancel`). -/
  callerCancelled : Bool
  watcher : Watcher
  returned : Option (Except Raised Answered)
  report : Option (Except ErrorEnvelope QueryMeta)
  /-- The future of the operation is dropped. -/
  gone : Bool

namespace Armed

/-- Registered with this entry, and armed. -/
def start (e : Entry) : Armed := ⟨if e.cancelled then some .dropPond else none, false, false, .selecting, none, none, false⟩

/-- `AbortToken::cancel`: once it is cancelled it stays so. -/
def cancel (s : Armed) (who : Canceller) : Armed := { s with first := s.first <|> some who }

/-- What `run_query_local` makes of what the engine returned. -/
def reportOf (site : Site) (write expired : Bool) : Except Raised Answered → Except ErrorEnvelope QueryMeta
  | .error e => .error (site.classify expired e)
  | .ok answered =>
    if !write ∧ site.limits.inlineRowCap < answered.rows then
      .error (resultCapExceeded answered.rows site.limits.inlineRowCap)
    else .ok answered.meta_

inductive Label where
  /-- The timer arm wins the `select!`, and stores the flag. -/
  | timer
  /-- It cancels the token. -/
  | timerCancels
  | callerCancels
  /-- The caller's arm wins the `select!`. -/
  | callerArm
  | registryCancels
  | dropPond
  | engine (result : Except Raised Answered)
  /-- The operation goes on behind the await, and ends. -/
  | classify
  /-- The caller hangs up: the guard stops the watcher and cancels the token. -/
  | hangUp

/-- One step. -/
def step (site : Site) (write : Bool) (s : Armed) : Label → Option Armed
  | .timer => if s.watcher = .selecting then some { s with watcher := .flagged, expired := true } else none
  | .timerCancels => if s.watcher = .flagged then some { s.cancel .deadline with watcher := .ended } else none
  | .callerCancels => some { s with callerCancelled := true }
  | .callerArm =>
    if s.watcher = .selecting ∧ s.callerCancelled = true then some { s.cancel .caller with watcher := .ended } else none
  | .registryCancels => some (s.cancel .registry)
  | .dropPond => some (s.cancel .dropPond)
  | .engine result => if s.returned.isNone then some { s with returned := some result } else none
  | .classify =>
    -- the guard is dropped with the operation; a watcher behind its flag has no await left to be stopped at
    match s.returned, s.report, s.gone with
    | some result, none, false =>
      some { s.cancel .guard with
        report := some (reportOf site write s.expired result)
        watcher := if s.watcher = .selecting then .ended else s.watcher }
    | _, _, _ => none
  | .hangUp =>
    if s.report.isNone ∧ s.gone = false then
      some { s.cancel .guard with gone := true, watcher := if s.watcher = .selecting then .ended else s.watcher }
    else none

/-! ### What is to hold -/

/-- The report says that the query timed out. -/
def TimedOut (report : Except ErrorEnvelope QueryMeta) : Prop := ∃ e, report = .error e ∧ e.kind = .queryTimeout

/-- The engine was stopped. -/
def Stopped (result : Except Raised Answered) : Prop := ∃ e, result = .error e ∧ e.error = .cancelled

/-- The engine returned a result that the operation takes. -/
def Completed (site : Site) (write : Bool) (result : Except Raised Answered) : Prop :=
  ∃ answered, result = .ok answered ∧ (write = true ∨ answered.rows ≤ site.limits.inlineRowCap)

/-- **The right cause**: a query is reported as timed out exactly when it was stopped and its deadline was the first to
cancel its token, and one that completed is reported as a success. -/
def RightCause (site : Site) (write : Bool) (s : Armed) : Prop :=
  ∀ result report, s.returned = some result → s.report = some report →
    (TimedOut report ↔ Stopped result ∧ s.first = some .deadline) ∧
      (Completed site write result → ∃ meta_, report = .ok meta_)

/-- The timer runs on a token that nobody has cancelled, and nobody comes between its two statements. -/
def Undisturbed (s : Armed) : Label → Prop
  | .timer => s.first = none
  | .registryCancels | .dropPond | .classify | .hangUp => s.watcher ≠ .flagged
  | _ => True

/-! ### The report -/

/-- **What is reported** is what `run_query_local` returns. -/
theorem runQueryLocal_report (site : Site) (write : Bool) (result : Except Raised Answered) (expired : Bool)
    (planned : Option QueryMeta) (published : ℕ) (t : Trail) :
    (runQueryLocal site (.ok ()) write ⟨.done (.ok result), expired, planned, published⟩ t).1 =
      .ofExcept (reportOf site write expired result) := by
  cases result with
  | error e => rfl
  | ok answered =>
    have hlocal : runQueryLocal site (.ok ()) write ⟨.done (.ok (.ok answered)), expired, planned, published⟩ t =
        (if !write ∧ site.limits.inlineRowCap < answered.rows then
          Act.fail (resultCapExceeded answered.rows site.limits.inlineRowCap)
        else (pure answered.meta_ : Act Trail ErrorEnvelope QueryMeta)) (giveToEngine published t).2 := rfl
    rw [hlocal, reportOf]
    split_ifs <;> rfl

theorem agentError_kind_timeout {e : EngineError} (h : e ≠ .timeout) : (agentError e).kind ≠ .queryTimeout := by
  cases e with
  | timeout => exact absurd rfl h
  | unsupported m feature => cases feature <;> nofun
  | _ => nofun

/-- A report of a timeout is that of a stopped query behind its flag. -/
theorem timedOut_reportOf {site : Site} {write expired : Bool} {result : Except Raised Answered} :
    TimedOut (reportOf site write expired result) ↔ Stopped result ∧ expired = true := by
  cases result with
  | error e =>
    have hstopped : Stopped (.error e) ↔ e.error = .cancelled := by simp [Stopped]
    have htimed : TimedOut (reportOf site write expired (.error e)) ↔ (site.classify expired e).kind = .queryTimeout := by
      simp [TimedOut, reportOf]
    rw [hstopped, htimed, Site.classify, Deadline.classify]
    by_cases h : e.error = .cancelled ∧ expired = true
    · rw [if_pos h]
      exact iff_of_true rfl h
    · rw [if_neg h]
      exact iff_of_false (agentError_kind_timeout e.made) h
  | ok answered =>
    refine iff_of_false ?_ ?_
    · rintro ⟨e, he, hkind⟩
      rw [reportOf] at he
      split_ifs at he
      cases he
      cases hkind
    · rintro ⟨⟨e, he, -⟩, -⟩
      cases he

theorem completed_reportOf {site : Site} {write expired : Bool} {result : Except Raised Answered}
    (h : Completed site write result) : ∃ meta_, reportOf site write expired result = .ok meta_ := by
  obtain ⟨answered, rfl, hfits⟩ := h
  refine ⟨answered.meta_, ?_⟩
  rw [reportOf, if_neg]
  rintro ⟨hread, hover⟩
  rcases hfits with rfl | hle
  · cases hread
  · exact Nat.not_lt.2 hle hover

/-! ### Every run -/

/-- The invariant: but between the two statements of the timer, the flag says whether the deadline was first. -/
structure Inv (site : Site) (write : Bool) (s : Armed) : Prop where
  flagged : s.watcher = .flagged → s.expired = true ∧ s.first = none ∧ s.report = none
  told : s.watcher ≠ .flagged → (s.expired = true ↔ s.first = some .deadline)
  settled : s.report.isSome → s.first.isSome
  returned_of_report : ∀ {report}, s.report = some report → s.returned ≠ none
  right : RightCause site write s

variable {site : Site} {write : Bool} {s s' : Armed}

@[simp] theorem first_cancel (s : Armed) (who : Canceller) : (s.cancel who).first = (s.first <|> some who) := rfl

/-- Who else cancels does not become the deadline. -/
theorem first_cancel_iff {who : Canceller} (hwho : who ≠ .deadline) :
    (s.cancel who).first = some .deadline ↔ s.first = some .deadline := by
  rw [first_cancel]
  cases s.first with
  | none => simpa using hwho
  | some w => rfl

/-- **Somebody else cancels**, who does not come between the two statements of the timer. -/
theorem Inv.cancel (h : Inv site write s) (who : Canceller) (hwho : who ≠ .deadline) (hw : s.watcher ≠ .flagged)
    {caller gone : Bool} {watcher : Watcher} (hwatcher : watcher ≠ .flagged) :
    Inv site write { s.cancel who with callerCancelled := caller, gone, watcher } where
  flagged hbad := absurd hbad hwatcher
  told _ := (h.told hw).trans (first_cancel_iff hwho).symm
  settled _ := by simp
  returned_of_report hreport := h.returned_of_report hreport
  right result report hresult hreport := by
    have hright := h.right result report hresult hreport
    exact ⟨hright.1.trans (and_congr_right fun _ => (first_cancel_iff hwho).symm), hright.2⟩

/-- **Every undisturbed step** keeps the invariant. -/
theorem Inv.step (h : Inv site write s) {a : Label} (hgood : s.Undisturbed a) (hs : s.step site write a = some s') :
    Inv site write s' := by
  cases a with
  | timer =>
    simp only [Armed.step, Option.ite_none_right_eq_some, Option.some.injEq] at hs
    obtain ⟨hsel, rfl⟩ := hs
    have hnone : s.first = none := hgood
    have hreport : s.report = none := by
      by_contra hsome
      have hfirst := h.settled (Option.isSome_iff_ne_none.2 hsome)
      rw [hnone] at hfirst
      cases hfirst
    refine ⟨fun _ => ⟨rfl, hnone, hreport⟩, fun hbad => absurd rfl hbad, h.settled, h.returned_of_report, ?_⟩
    intro result report _ hsome
    rw [show s.report = some report from hsome] at hreport
    cases hreport
  | timerCancels =>
    simp only [Armed.step, Option.ite_none_right_eq_some, Option.some.injEq] at hs
    obtain ⟨hflagged, rfl⟩ := hs
    obtain ⟨hexpired, hfirst, hreport⟩ := h.flagged hflagged
    refine ⟨nofun, fun _ => ?_, fun _ => by simp, h.returned_of_report, ?_⟩
    · simp [hfirst, hexpired, Armed.cancel]
    · intro result report _ hsome
      rw [show s.report = some report from hsome] at hreport
      cases hreport
  | callerCancels =>
    obtain rfl := Option.some.inj hs
    exact ⟨h.flagged, h.told, h.settled, h.returned_of_report, h.right⟩
  | callerArm =>
    simp only [Armed.step, Option.ite_none_right_eq_some, Option.some.injEq] at hs
    obtain ⟨⟨hsel, -⟩, rfl⟩ := hs
    exact h.cancel .caller nofun (by rw [hsel]; nofun) nofun
  | registryCancels =>
    obtain rfl := Option.some.inj hs
    exact h.cancel .registry nofun hgood hgood
  | dropPond =>
    obtain rfl := Option.some.inj hs
    exact h.cancel .dropPond nofun hgood hgood
  | engine result =>
    simp only [Armed.step, Option.ite_none_right_eq_some, Option.some.injEq] at hs
    obtain ⟨hnone, rfl⟩ := hs
    have hnot : ∀ report, s.report ≠ some report := fun report hreport =>
      h.returned_of_report hreport (Option.isNone_iff_eq_none.1 hnone)
    exact ⟨h.flagged, h.told, h.settled, fun _ => nofun, fun _ report _ hreport => absurd hreport (hnot report)⟩
  | classify =>
    simp only [Armed.step] at hs
    split at hs
    · rename_i result hreturned hreport hgone
      obtain rfl := Option.some.inj hs
      have hw : (if s.watcher = .selecting then Watcher.ended else s.watcher) ≠ .flagged := by
        split_ifs
        · nofun
        · exact hgood
      have hfirst : (s.cancel .guard).first = some .deadline ↔ s.first = some .deadline := first_cancel_iff nofun
      refine ⟨fun hbad => absurd hbad hw, fun _ => (h.told hgood).trans hfirst.symm, fun _ => by simp, ?_, ?_⟩
      · intro report _ (hnone : s.returned = none)
        rw [hreturned] at hnone
        cases hnone
      · intro result' report hresult hsome
        obtain rfl := Option.some.inj (hreturned.symm.trans hresult)
        obtain rfl := Option.some.inj hsome
        refine ⟨?_, completed_reportOf⟩
        rw [timedOut_reportOf, h.told hgood]
        exact and_congr_right fun _ => hfirst.symm
    · cases hs
  | hangUp =>
    simp only [Armed.step, Option.ite_none_right_eq_some, Option.some.injEq] at hs
    obtain ⟨-, rfl⟩ := hs
    refine h.cancel .guard nofun hgood ?_
    split_ifs
    · nofun
    · exact hgood

theorem inv_start (site : Site) (write : Bool) (e : Entry) : Inv site write (start e) where
  flagged := nofun
  told _ := by
    unfold start
    cases e.cancelled <;> simp
  settled := nofun
  returned_of_report := nofun
  right _ _ _ := nofun

/-- **The right cause is reported** in every run in which the timer runs on a token that nobody has cancelled, and nobody
comes between its two statements. -/
theorem right_cause (site : Site) (write : Bool) (e : Entry) (labels : List Label)
    (h : Runs.Careful (Armed.step site write) Undisturbed (start e) labels) :
    Runs.Always (Armed.step site write) (RightCause site write) (start e) labels :=
  Runs.always_of_careful (I := Inv site write) (fun _ _ _ hinv hgood hs => hinv.step hgood hs) (fun _ hinv => hinv.right)
    (inv_start site write e) h

/-! ### A drop, and the deadline behind it -/

/-- A node. -/
def oneNode : Site where
  identity := ⟨"a".toList, [], [], false⟩
  servingName := "node".toList
  engineVersion := "v1.5.3".toList
  limits := ⟨60000, 300000, 10000⟩

/-- A query stopped in the engine. -/
def stopped : Except Raised Answered := .error ⟨.cancelled, nofun⟩

/-- The deadline passes while a statement runs. -/
def expiring : List Label := [.timer, .timerCancels, .engine stopped, .classify, .dropPond]

theorem expiring_right :
    Runs.Always (Armed.step oneNode false) (RightCause oneNode false) (start ⟨false, none⟩) expiring := by
  refine right_cause oneNode false ⟨false, none⟩ expiring ?_
  rintro s₁ h₁
  cases h₁
  refine ⟨rfl, ?_⟩
  rintro s₂ h₂
  cases h₂
  refine ⟨trivial, ?_⟩
  rintro s₃ h₃
  cases h₃
  refine ⟨trivial, ?_⟩
  rintro s₄ h₄
  cases h₄
  exact ⟨nofun, fun s₅ _ => ⟨nofun, trivial⟩⟩

/-- A drop of the pond cancels the token, and the engine returns when the deadline is past. -/
def slow : List Label := [.dropPond, .timer, .timerCancels, .engine stopped, .classify]

/-- The query is reported as timed out, although a drop of its pond had cancelled it. -/
theorem dropped_then_expired :
    ¬Runs.Always (Armed.step oneNode false) (RightCause oneNode false) (start ⟨false, none⟩) slow := by
  intro h
  have hrun : Runs.run (Armed.step oneNode false) (start ⟨false, none⟩) slow =
      some ⟨some .dropPond, true, false, .ended, some stopped, some (reportOf oneNode false true stopped), false⟩ := rfl
  have hright := h.last hrun stopped (reportOf oneNode false true stopped) rfl rfl
  have htimed : TimedOut (reportOf oneNode false true stopped) := timedOut_reportOf.2 ⟨⟨_, rfl, rfl⟩, rfl⟩
  cases (hright.1.1 htimed).2

end Armed

end Latiq.AgentCore
