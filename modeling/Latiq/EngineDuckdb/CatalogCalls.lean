import Latiq.EngineDuckdb.DuckEngine
import Mathlib.Logic.Function.Basic

/-!
# Catalog calls

`pull_catalog` and `describe_catalog` create secrets, attach a catalog, run their query, and then detach and drop what
they have created. The statements of this module change an `Instance`: the databases that are attached, the secrets, and
the default database of the connection. DuckDB compares all these names without their case, as `key` does.

## The model

* `Statement`, `Instance.exec` — the statements by what they mean. `DROP SECRET IF EXISTS` drops what is there;
  `DETACH` is refused for a database that is not attached, and for the default one.
* `Outside` — which statements fail for reasons of their own, and what the transaction of a pull leaves of the instance,
  with the plan that is extracted before it.
* `attachCatalog`, `teardownCatalog`, `pullCatalog`, `describeCatalog` — as in the source.

A catalog's own metadata database comes and goes with the catalog. The datasets of a pull are left out.

## What is proved

* `inner_apply`, `teardown_apply` — what the set-up and the teardown make of an instance.
* `no_trace_iff` — the instance is as it was where, and only where, no database of this alias was attached that could be
  detached, the secrets of the plan were not there or cannot be dropped, and the query keeps the rest.
-/

namespace Latiq.EngineDuckdb.CatalogCalls

open SqlLex (Text)
open Unwind

/-! ### Instances -/

/-- Names are compared without their case. -/
def key (name : Text) : Text := name.map Char.toLower

/-- What a catalog call could leave behind. -/
@[ext]
structure Instance where
  attached : Text → Bool
  secrets : Text → Option Text
  default_ : Text

/-- The statements of a catalog call. -/
inductive Statement where
  | noAutoinstall
  | load (ext sql : Text)
  | createSecret (name sql : Text)
  | attach (alias_ sql : Text)
  | detach (alias_ : Text)
  | dropSecret (name : Text)
  deriving DecidableEq, Repr

namespace Instance

variable (i : Instance)

/-- The database is attached, or not. -/
def mount (alias_ : Text) (b : Bool) : Instance := { i with attached := Function.update i.attached (key alias_) b }

/-- The secret is there, or not. -/
def put (name : Text) (sql : Option Text) : Instance :=
  { i with secrets := Function.update i.secrets (key name) sql }

/-- What a statement does; DuckDB refuses it where this is `none`. -/
def exec : Statement → Option Instance
  | .noAutoinstall => some i
  | .load _ _ => some i
  | .createSecret name sql => some (i.put name (some sql))
  | .attach alias_ _ => if i.attached (key alias_) then none else some (i.mount alias_ true)
  | .detach alias_ => if i.attached (key alias_) ∧ i.default_ ≠ key alias_ then some (i.mount alias_ false) else none
  | .dropSecret name => some (i.put name none)

end Instance

/-- What a call meets: the statements that fail, and what the bracket of a pull returns and leaves, and what the listing
of a `describe_catalog` returns. -/
structure Outside where
  fails : Statement → Option Text
  pull : Instance → Except EngineError Unit × Instance
  listing : Except EngineError Unit

/-! ### The calls -/

section

variable (o : Outside)

/-- `execute_batch`. -/
def execute (s : Statement) : Act Instance Text Unit := fun i =>
  match o.fails s with
  | some message => (.err message, i)
  | none =>
    match i.exec s with
    | some i' => (.ok (), i')
    | none => (.err "Binder Error".toList, i)

/-- Statements, up to the first that fails. -/
def executeEach : List (Statement × (Text → EngineError)) → Act Instance EngineError Unit
  | [] => pure ()
  | (s, asError) :: rest => do
    Act.mapErr asError (execute o s)
    executeEach rest

/-- The statements of `attach_catalog_inner` before the secrets. -/
def loads (plan : AttachPlan) : List (Statement × (Text → EngineError)) :=
  (.noAutoinstall, fun e => .engine (autoinstallMessage e)) ::
    plan.load.map fun (ext, sql) => (.load ext sql, extensionNotCached ext loadContext)

/-- The secrets of `attach_catalog_inner`. -/
def creates (secrets : List (Text × Text)) : List (Statement × (Text → EngineError)) :=
  secrets.map fun (name, sql) => (.createSecret name sql, Errclass.classifyMessage)

/-- `attach_catalog_inner`. -/
def attachCatalogInner (plan : AttachPlan) : Act Instance EngineError Unit := do
  executeEach o (loads plan)
  executeEach o (creates plan.secrets)
  Act.mapErr Errclass.classifyMessage (execute o (.attach plan.alias_ plan.attach))

/-- `AttachPlan::teardown`. -/
def teardown (plan : AttachPlan) : List Statement :=
  .detach plan.alias_ :: plan.secrets.map fun (name, _) => .dropSecret name

/-- `teardown_catalog`. -/
def teardownCatalog : List Statement → Act Instance EngineError Unit
  | [] => pure ()
  | s :: rest => do
    let _ ← (Act.attempt (execute o s) : Act Instance EngineError (Except Text Unit))
    teardownCatalog rest

/-- `attach_catalog`. -/
def attachCatalog (plan : AttachPlan) : Act Instance EngineError Unit := do
  match ← (Act.attempt (attachCatalogInner o plan) : Act Instance EngineError (Except EngineError Unit)) with
  | .ok _ => pure ()
  | .error e => do
    teardownCatalog o (teardown plan)
    Act.fail e

/-- What is between the plan and the end of both calls. -/
def withCatalog (body : Instance → Except EngineError Unit × Instance) :
    Except EngineError AttachPlan → Act Instance EngineError Unit
  | .error e => Act.fail e
  | .ok plan => do
    attachCatalog o plan
    let ran ← (Act.attempt (Act.lift body) : Act Instance EngineError (Except EngineError Unit))
    teardownCatalog o (teardown plan)
    match ran with
    | .error e => Act.fail e
    | .ok () => pure ()

/-- `pull_catalog`, on the pond's writer, with the plan `attachers::plan` made of its parameters. -/
def pullCatalog (plan : Except EngineError AttachPlan) : Act Instance EngineError Unit := withCatalog o o.pull plan

/-- `describe_catalog`: a `SELECT` changes nothing here. -/
def describeCatalog (plan : Except EngineError AttachPlan) : Act Instance EngineError Unit :=
  withCatalog o (fun i => (o.listing, i)) plan

end

/-! ### What the set-up makes of an instance -/

section

variable (o : Outside) (plan : AttachPlan)

/-- The instance with these secrets. -/
def Instance.withSecrets (i : Instance) : List (Text × Text) → Instance
  | [] => i
  | (name, sql) :: rest => (i.put name (some sql)).withSecrets rest

/-- The instance with the secrets and the database of the plan. -/
def Instance.ready (i : Instance) : Instance := (i.withSecrets plan.secrets).mount plan.alias_ true

/-- No statement of these fails for reasons of its own. -/
def Outside.lets (steps : List (Statement × (Text → EngineError))) : Bool := steps.all fun s => (o.fails s.1).isNone

/-- The set-up reaches the query. -/
def Outside.reaches (i : Instance) : Bool :=
  o.lets (loads plan) && o.lets (creates plan.secrets) && (o.fails (.attach plan.alias_ plan.attach)).isNone &&
    !i.attached (key plan.alias_)

/-- The secrets that the set-up creates. -/
def Outside.created : List (Text × Text) :=
  if o.lets (loads plan) then
    plan.secrets.takeWhile fun secret => (o.fails (.createSecret secret.1 secret.2)).isNone
  else []

end

section

variable {o : Outside}

theorem execute_of_fails {s : Statement} {message : Text} (h : o.fails s = some message) (i : Instance) :
    execute o s i = (.err message, i) := by
  rw [execute, h]

theorem execute_of_lets {s : Statement} (h : o.fails s = none) {i i' : Instance} (hs : i.exec s = some i') :
    execute o s i = (.ok (), i') := by
  rw [execute, h]
  dsimp only
  rw [hs]

theorem execute_of_refused {s : Statement} (h : o.fails s = none) {i : Instance} (hs : i.exec s = none) :
    execute o s i = (.err "Binder Error".toList, i) := by
  rw [execute, h]
  dsimp only
  rw [hs]

/-- The statements before the secrets change nothing. -/
theorem executeEach_loads {steps : List (Statement × (Text → EngineError))}
    (hsteps : ∀ s ∈ steps, ∀ i : Instance, i.exec s.1 = some i) (i : Instance) :
    executeEach o steps i = (.ok (), i) ∧ o.lets steps = true ∨
      (∃ e, executeEach o steps i = (.err e, i)) ∧ o.lets steps = false := by
  induction steps with
  | nil => exact .inl ⟨rfl, rfl⟩
  | cons s rest ih =>
    obtain ⟨s, asError⟩ := s
    cases hs : o.fails s with
    | some message =>
      refine .inr ⟨⟨asError message, ?_⟩, by simp [Outside.lets, hs]⟩
      exact Act.bind_of_err (by rw [Act.mapErr_apply, execute_of_fails hs]; rfl) _
    | none =>
      have hexec : executeEach o ((s, asError) :: rest) i = executeEach o rest i :=
        Act.bind_of_ok (by rw [Act.mapErr_apply, execute_of_lets hs (hsteps _ List.mem_cons_self i)]; rfl) _
      have hlets : o.lets ((s, asError) :: rest) = o.lets rest := by simp [Outside.lets, hs]
      rw [hexec, hlets]
      exact ih fun s hs => hsteps s (List.mem_cons_of_mem _ hs)

/-- The secrets are created up to the first that fails. -/
theorem executeEach_creates (secrets : List (Text × Text)) (i : Instance) :
    executeEach o (creates secrets) i = (.ok (), i.withSecrets secrets) ∧ o.lets (creates secrets) = true ∨
      (∃ e, executeEach o (creates secrets) i = (.err e, i.withSecrets
        (secrets.takeWhile fun secret => (o.fails (.createSecret secret.1 secret.2)).isNone))) ∧
        o.lets (creates secrets) = false := by
  induction secrets generalizing i with
  | nil => exact .inl ⟨rfl, rfl⟩
  | cons secret rest ih =>
    obtain ⟨name, sql⟩ := secret
    cases hs : o.fails (.createSecret name sql) with
    | some message =>
      refine .inr ⟨⟨Errclass.classifyMessage message, ?_⟩, by simp [Outside.lets, creates, hs]⟩
      rw [List.takeWhile_cons_of_neg (by simp [hs])]
      exact Act.bind_of_err (by rw [Act.mapErr_apply, execute_of_fails hs]; rfl) _
    | none =>
      have hexec : executeEach o (creates ((name, sql) :: rest)) i =
          executeEach o (creates rest) (i.put name (some sql)) :=
        Act.bind_of_ok (by rw [Act.mapErr_apply, execute_of_lets hs rfl]; rfl) _
      have hlets : o.lets (creates ((name, sql) :: rest)) = o.lets (creates rest) := by
        simp [Outside.lets, creates, hs]
      rw [hexec, hlets, List.takeWhile_cons_of_pos (by simp [hs])]
      exact ih _

theorem withSecrets_attached (i : Instance) (secrets : List (Text × Text)) :
    (i.withSecrets secrets).attached = i.attached := by
  induction secrets generalizing i with
  | nil => rfl
  | cons secret rest ih => exact ih _

theorem withSecrets_default (i : Instance) (secrets : List (Text × Text)) :
    (i.withSecrets secrets).default_ = i.default_ := by
  induction secrets generalizing i with
  | nil => rfl
  | cons secret rest ih => exact ih _

/-- **The set-up**: it ends with the catalog attached, or with an error behind some of the secrets. -/
theorem inner_apply (plan : AttachPlan) (i : Instance) :
    attachCatalogInner o plan i = (.ok (), i.ready plan) ∧ o.reaches plan i = true ∨
      (∃ e, attachCatalogInner o plan i = (.err e, i.withSecrets (o.created plan))) ∧ o.reaches plan i = false := by
  have hloads : ∀ s ∈ loads plan, ∀ i : Instance, i.exec s.1 = some i := by
    intro s hs i
    obtain rfl | hs := List.mem_cons.1 hs
    · rfl
    · obtain ⟨⟨ext, sql⟩, -, rfl⟩ := List.mem_map.1 hs
      rfl
  unfold attachCatalogInner Outside.reaches Outside.created
  obtain ⟨hl, hlets⟩ | ⟨⟨e, hl⟩, hlets⟩ := executeEach_loads (o := o) hloads i
  · obtain ⟨hc, hcreates⟩ | ⟨⟨e, hc⟩, hcreates⟩ := executeEach_creates (o := o) plan.secrets i
    · rw [Act.bind_of_ok hl, Act.bind_of_ok hc, hlets, hcreates, if_pos rfl]
      have hall : plan.secrets.takeWhile (fun secret => (o.fails (.createSecret secret.1 secret.2)).isNone) =
          plan.secrets := by
        rw [List.takeWhile_eq_self_iff]
        intro secret hsecret
        exact List.all_eq_true.1 hcreates _ (List.mem_map_of_mem hsecret)
      rw [hall]
      cases hs : o.fails (.attach plan.alias_ plan.attach) with
      | some message =>
        refine .inr ⟨⟨Errclass.classifyMessage message, ?_⟩, by simp⟩
        rw [Act.mapErr_apply, execute_of_fails hs]
        rfl
      | none =>
        cases hattached : i.attached (key plan.alias_) with
        | true =>
          refine .inr ⟨⟨Errclass.classifyMessage "Binder Error".toList, ?_⟩, by simp⟩
          rw [Act.mapErr_apply, execute_of_refused hs (if_pos (by rw [withSecrets_attached, hattached]))]
          rfl
        | false =>
          refine .inl ⟨?_, by simp⟩
          rw [Act.mapErr_apply, execute_of_lets hs (if_neg (by rw [withSecrets_attached, hattached]; exact Bool.false_ne_true))]
          rfl
    · rw [Act.bind_of_ok hl, Act.bind_of_err hc, hlets, hcreates, if_pos rfl]
      exact .inr ⟨⟨e, rfl⟩, rfl⟩
  · rw [Act.bind_of_err hl, hlets, if_neg Bool.false_ne_true]
    exact .inr ⟨⟨e, rfl⟩, rfl⟩

/-! ### What the teardown makes of an instance -/

/-- A statement whose error nobody looks at. -/
def Outside.attempted (o : Outside) (i : Instance) (s : Statement) : Instance :=
  if (o.fails s).isSome then i else (i.exec s).getD i

theorem teardownCatalog_apply (ss : List Statement) (i : Instance) :
    teardownCatalog o ss i = (.ok (), ss.foldl o.attempted i) := by
  induction ss generalizing i with
  | nil => rfl
  | cons s rest ih =>
    rw [List.foldl_cons, teardownCatalog, ← ih]
    cases hs : o.fails s with
    | some message =>
      rw [Act.bind_of_ok (Act.attempt_of_err (execute_of_fails hs i)), Outside.attempted, hs]
      rfl
    | none =>
      cases hexec : i.exec s with
      | none =>
        rw [Act.bind_of_ok (Act.attempt_of_err (execute_of_refused hs hexec)), Outside.attempted, hs, hexec]
        rfl
      | some i' =>
        rw [Act.bind_of_ok (Act.attempt_of_ok (execute_of_lets hs hexec)), Outside.attempted, hs, hexec]
        rfl

/-- The teardown drops a secret of this name. -/
def Outside.Drops (o : Outside) (plan : AttachPlan) (x : Text) : Prop :=
  ∃ secret ∈ plan.secrets, key secret.1 = x ∧ o.fails (.dropSecret secret.1) = none

/-- The teardown can detach the catalog. -/
def Outside.Detaches (o : Outside) (plan : AttachPlan) (i : Instance) : Prop :=
  o.fails (.detach plan.alias_) = none ∧ i.default_ ≠ key plan.alias_

/-- What the teardown leaves. -/
def Outside.torn (o : Outside) (plan : AttachPlan) (i : Instance) : Instance := (teardown plan).foldl o.attempted i

theorem attempted_detach (plan : AttachPlan) (i : Instance) :
    (o.attempted i (.detach plan.alias_)).default_ = i.default_ ∧
      (o.attempted i (.detach plan.alias_)).secrets = i.secrets ∧
      ∀ x, (o.attempted i (.detach plan.alias_)).attached x = true ↔
        i.attached x = true ∧ (x = key plan.alias_ → ¬o.Detaches plan i) := by
  cases hs : o.fails (.detach plan.alias_) with
  | some message =>
    have hkept : o.attempted i (.detach plan.alias_) = i := by
      rw [Outside.attempted, hs]
      rfl
    rw [hkept]
    refine ⟨rfl, rfl, fun x => (and_iff_left fun _ h => ?_).symm⟩
    rw [Outside.Detaches, hs] at h
    cases h.1
  | none =>
    by_cases hi : i.attached (key plan.alias_) = true ∧ i.default_ ≠ key plan.alias_
    · have hgone : o.attempted i (.detach plan.alias_) = i.mount plan.alias_ false := by
        rw [Outside.attempted, hs, Instance.exec, if_pos hi]
        rfl
      rw [hgone]
      refine ⟨rfl, rfl, fun x => ?_⟩
      by_cases hx : x = key plan.alias_
      · simp [Instance.mount, hx, Outside.Detaches, hs, hi.2]
      · simp [Instance.mount, hx]
    · have hkept : o.attempted i (.detach plan.alias_) = i := by
        rw [Outside.attempted, hs, Instance.exec, if_neg hi]
        rfl
      rw [hkept]
      refine ⟨rfl, rfl, fun x => ⟨fun hx => ⟨hx, ?_⟩, And.left⟩⟩
      rintro rfl ⟨-, hdefault⟩
      exact hi ⟨hx, hdefault⟩

theorem attempted_dropSecret (i : Instance) (name : Text) :
    (o.attempted i (.dropSecret name)).attached = i.attached ∧
      (o.attempted i (.dropSecret name)).default_ = i.default_ ∧
      ∀ x, (o.attempted i (.dropSecret name)).secrets x =
        if key name = x ∧ o.fails (.dropSecret name) = none then none else i.secrets x := by
  cases hs : o.fails (.dropSecret name) with
  | some message =>
    have hkept : o.attempted i (.dropSecret name) = i := by
      rw [Outside.attempted, hs]
      rfl
    rw [hkept]
    exact ⟨rfl, rfl, fun x => (if_neg fun h => Option.some_ne_none _ h.2).symm⟩
  | none =>
    have hgone : o.attempted i (.dropSecret name) = i.put name none := by
      rw [Outside.attempted, hs]
      rfl
    rw [hgone]
    refine ⟨rfl, rfl, fun x => ?_⟩
    by_cases hx : x = key name
    · simp [Instance.put, hx]
    · simp [Instance.put, hx, Ne.symm hx]

/-- The secrets that are dropped, one by one. -/
theorem foldl_dropSecret (secrets : List (Text × Text)) (i : Instance) :
    let i' := (secrets.map fun secret => Statement.dropSecret secret.1).foldl o.attempted i
    i'.attached = i.attached ∧ i'.default_ = i.default_ ∧ ∀ x,
      ((∃ secret ∈ secrets, key secret.1 = x ∧ o.fails (.dropSecret secret.1) = none) → i'.secrets x = none) ∧
        ((¬∃ secret ∈ secrets, key secret.1 = x ∧ o.fails (.dropSecret secret.1) = none) →
          i'.secrets x = i.secrets x) := by
  induction secrets generalizing i with
  | nil => exact ⟨rfl, rfl, fun x => ⟨by simp, fun _ => rfl⟩⟩
  | cons secret rest ih =>
    obtain ⟨hattached, hdefault, hsecrets⟩ := attempted_dropSecret (o := o) i secret.1
    obtain ⟨hattached', hdefault', hsecrets'⟩ := ih (o.attempted i (.dropSecret secret.1))
    refine ⟨hattached'.trans hattached, hdefault'.trans hdefault, fun x => ?_⟩
    obtain ⟨hdrops, hkeeps⟩ := hsecrets' x
    simp only [List.exists_mem_cons_iff, not_or]
    constructor
    · rintro (hhead | hrest)
      · by_cases hrest : ∃ secret ∈ rest, key secret.1 = x ∧ o.fails (.dropSecret secret.1) = none
        · exact hdrops hrest
        · exact (hkeeps hrest).trans ((hsecrets x).trans (if_pos hhead))
      · exact hdrops hrest
    · rintro ⟨hhead, hrest⟩
      exact (hkeeps hrest).trans ((hsecrets x).trans (if_neg hhead))

/-- **The teardown**: it detaches the catalog and drops the secrets, as far as it can. -/
theorem torn_eq (plan : AttachPlan) (i : Instance) :
    (o.torn plan i).default_ = i.default_ ∧
      (∀ x, (o.torn plan i).attached x = true ↔ i.attached x = true ∧ (x = key plan.alias_ → ¬o.Detaches plan i)) ∧
      ∀ x, (o.Drops plan x → (o.torn plan i).secrets x = none) ∧
        (¬o.Drops plan x → (o.torn plan i).secrets x = i.secrets x) := by
  obtain ⟨hdefault, hsecrets, hattached⟩ := attempted_detach (o := o) plan i
  obtain ⟨hattached', hdefault', hsecrets'⟩ := foldl_dropSecret (o := o) plan.secrets
    (o.attempted i (.detach plan.alias_))
  refine ⟨hdefault'.trans hdefault, fun x => ?_, fun x => ⟨(hsecrets' x).1, fun hx => ?_⟩⟩
  · rw [← hattached x, ← hattached']
    rfl
  · rw [← hsecrets]
    exact (hsecrets' x).2 hx

/-- The teardown gives back an instance. -/
theorem torn_iff (plan : AttachPlan) (b i : Instance) :
    o.torn plan b = i ↔ b.default_ = i.default_ ∧
      (∀ x, b.attached x = true ∧ (x = key plan.alias_ → ¬o.Detaches plan b) ↔ i.attached x = true) ∧
      ∀ x, (o.Drops plan x → i.secrets x = none) ∧ (¬o.Drops plan x → b.secrets x = i.secrets x) := by
  obtain ⟨hdefault, hattached, hsecrets⟩ := torn_eq (o := o) plan b
  constructor
  · rintro rfl
    refine ⟨hdefault.symm, fun x => (hattached x).symm, fun x => ⟨(hsecrets x).1, fun hx => ?_⟩⟩
    exact ((hsecrets x).2 hx).symm
  · rintro ⟨hd, ha, hs⟩
    refine Instance.ext (funext fun x => ?_) (funext fun x => ?_) (hdefault.trans hd)
    · exact Bool.eq_iff_iff.2 ((hattached x).trans (ha x))
    · by_cases hx : o.Drops plan x
      · exact ((hsecrets x).1 hx).trans ((hs x).1 hx).symm
      · exact ((hsecrets x).2 hx).trans ((hs x).2 hx)

/-! ### No trace -/

/-- The query keeps all that is not the catalog's, and does not keep the catalog from being detached. -/
structure Outside.Restores (o : Outside) (plan : AttachPlan) (i left : Instance) : Prop where
  default_ : left.default_ = i.default_
  attached : ∀ x, x ≠ key plan.alias_ → left.attached x = i.attached x
  detached : left.attached (key plan.alias_) = true → o.Detaches plan left
  secrets : ∀ x, ¬o.Drops plan x → left.secrets x = i.secrets x

/-- The set-up has failed, on an instance where the teardown takes away nothing else. -/
structure Outside.Undoes (o : Outside) (plan : AttachPlan) (i : Instance) : Prop where
  attached : i.attached (key plan.alias_) = true → ¬o.Detaches plan i
  secrets : ∀ x, ¬o.Drops plan x → (i.withSecrets (o.created plan)).secrets x = i.secrets x

/-- No secret that is dropped was there before, and what is not dropped is as it was. -/
structure Outside.Traceless (o : Outside) (body : Instance → Except EngineError Unit × Instance) (plan : AttachPlan)
    (i : Instance) : Prop where
  dropped : ∀ x, o.Drops plan x → i.secrets x = none
  reached : o.reaches plan i = true → o.Restores plan i (body (i.ready plan)).2
  failed : o.reaches plan i = false → o.Undoes plan i

theorem attachCatalog_apply (plan : AttachPlan) (i : Instance) :
    attachCatalog o plan i = (.ok (), i.ready plan) ∧ o.reaches plan i = true ∨
      (∃ e, attachCatalog o plan i = (.err e, o.torn plan (i.withSecrets (o.created plan)))) ∧
        o.reaches plan i = false := by
  obtain ⟨h, hreaches⟩ | ⟨⟨e, h⟩, hreaches⟩ := inner_apply (o := o) plan i
  · exact .inl ⟨Act.bind_of_ok (Act.attempt_of_ok h) _, hreaches⟩
  · refine .inr ⟨⟨e, ?_⟩, hreaches⟩
    rw [attachCatalog, Act.bind_of_ok (Act.attempt_of_err h)]
    exact Act.bind_of_ok (teardownCatalog_apply (teardown plan) _) _

/-- What a call leaves. -/
theorem withCatalog_snd (body : Instance → Except EngineError Unit × Instance) (plan : AttachPlan) (i : Instance) :
    (withCatalog o body (.ok plan) i).2 =
      o.torn plan (if o.reaches plan i then (body (i.ready plan)).2 else i.withSecrets (o.created plan)) := by
  rw [withCatalog]
  obtain ⟨h, hreaches⟩ | ⟨⟨e, h⟩, hreaches⟩ := attachCatalog_apply (o := o) plan i
  · rw [Act.bind_of_ok h, if_pos hreaches]
    have hbody : ∃ r : Except EngineError Unit, (Act.attempt (Act.lift body) : Act Instance EngineError _) (i.ready plan) =
        (.ok r, (body (i.ready plan)).2) := by
      cases hb : (body (i.ready plan)).1 with
      | ok u => exact ⟨.ok u, Act.attempt_of_ok (by rw [Act.lift_apply, hb]; rfl)⟩
      | error e => exact ⟨.error e, Act.attempt_of_err (by rw [Act.lift_apply, hb]; rfl)⟩
    obtain ⟨r, hr⟩ := hbody
    rw [Act.bind_of_ok hr, Act.bind_of_ok (teardownCatalog_apply (teardown plan) _)]
    cases r <;> rfl
  · rw [Act.bind_of_err h, if_neg (by rw [hreaches]; exact Bool.false_ne_true)]

theorem withCatalog_iff (body : Instance → Except EngineError Unit × Instance) (plan : AttachPlan) (i : Instance) :
    (withCatalog o body (.ok plan) i).2 = i ↔ o.Traceless body plan i := by
  rw [withCatalog_snd, torn_iff]
  cases hreaches : o.reaches plan i with
  | true =>
    have hnot : i.attached (key plan.alias_) = false := by
      simpa using (Bool.and_eq_true_iff.1 hreaches).2
    rw [if_pos rfl]
    constructor
    · rintro ⟨hdefault, hattached, hsecrets⟩
      refine ⟨fun x => (hsecrets x).1, fun _ => ⟨hdefault, fun x hx => ?_, fun h => ?_, fun x => (hsecrets x).2⟩, ?_⟩
      · exact Bool.eq_iff_iff.2 ⟨fun h => (hattached x).1 ⟨h, fun heq => absurd heq hx⟩, fun h => ((hattached x).2 h).1⟩
      · by_contra hdetaches
        have htrue := (hattached _).1 ⟨h, fun _ => hdetaches⟩
        rw [hnot] at htrue
        cases htrue
      · rw [hreaches]
        exact fun h => Bool.noConfusion h
    · rintro ⟨hdropped, hreached, -⟩
      obtain ⟨hdefault, hattached, hdetached, hsecrets⟩ := hreached hreaches
      refine ⟨hdefault, fun x => ?_, fun x => ⟨hdropped x, hsecrets x⟩⟩
      by_cases hx : x = key plan.alias_
      · subst hx
        rw [hnot]
        exact ⟨fun h => absurd (hdetached h.1) (h.2 rfl), fun h => Bool.noConfusion h⟩
      · rw [hattached x hx]
        exact and_iff_left fun heq => absurd heq hx
  | false =>
    rw [if_neg Bool.false_ne_true]
    have hdetaches : o.Detaches plan (i.withSecrets (o.created plan)) ↔ o.Detaches plan i := by
      rw [Outside.Detaches, withSecrets_default]
      rfl
    rw [hdetaches, withSecrets_default, withSecrets_attached]
    constructor
    · rintro ⟨-, hattached, hsecrets⟩
      refine ⟨fun x => (hsecrets x).1, ?_, fun _ => ⟨fun h => ((hattached _).2 h).2 rfl, fun x => (hsecrets x).2⟩⟩
      rw [hreaches]
      exact fun h => Bool.noConfusion h
    · rintro ⟨hdropped, -, hfailed⟩
      obtain ⟨hattached, hsecrets⟩ := hfailed hreaches
      refine ⟨rfl, fun x => ⟨And.left, fun h => ⟨h, ?_⟩⟩, fun x => ⟨hdropped x, hsecrets x⟩⟩
      rintro rfl
      exact hattached h

end

/-- **No trace**: behind a `pull_catalog` the instance is as it was where, and only where, the secrets that the teardown
drops were not there before, and, where the set-up reaches the query, the query restores all but the catalog, and else
nothing is detached and no secret is left; and so it is behind a `describe_catalog`, whose query leaves all as it is. -/
theorem no_trace_iff (o : Outside) (plan : Except EngineError AttachPlan) (i : Instance) :
    ((pullCatalog o plan i).2 = i ↔ ∀ p, plan = .ok p → o.Traceless o.pull p i) ∧
      ((describeCatalog o plan i).2 = i ↔ ∀ p, plan = .ok p → o.Traceless (fun i => (o.listing, i)) p i) := by
  cases plan with
  | error e => exact ⟨⟨fun _ _ => nofun, fun _ => rfl⟩, ⟨fun _ _ => nofun, fun _ => rfl⟩⟩
  | ok plan =>
    unfold pullCatalog describeCatalog
    simp only [withCatalog_iff, Except.ok.injEq, forall_eq', and_self]

/-! ### What goes wrong -/

/-- Nothing fails, and a pull leaves its instance alone. -/
def untroubled : Outside := ⟨fun _ => none, fun i => (.ok (), i), .ok ()⟩

/-- A pond's instance: its database is the default, and DuckDB's own `memory` is there. -/
def opened : Instance := ⟨fun x => decide (x = "memory".toList ∨ x = "pond".toList), fun _ => none, "pond".toList⟩

/-- A DuckLake catalog, under the name `memory`. -/
def namedMemory : AttachPlan :=
  ⟨"memory".toList, [], [], "ATTACH 'ducklake:/m.db' AS \"memory\" (DATA_PATH '/d', READ_ONLY)".toList⟩

/-- **A trace**: the catalog is not attached, for there is a database of this name, and the teardown detaches that. -/
theorem detached_memory : (pullCatalog untroubled (.ok namedMemory) opened).2 ≠ opened := by
  intro h
  have hmemory := congrFun (congrArg Instance.attached h) "memory".toList
  revert hmemory
  decide

end Latiq.EngineDuckdb.CatalogCalls
