import Mathlib.Logic.Function.Basic
import Mathlib.Logic.Relation
import Mathlib.Tactic.Common

/-!
# Runs of a system

A system is a step function: `step s l` is the state behind the label `l`, or nothing
where `l` cannot happen in `s`. Whatever is not determined by a state, the choice of
who moves and how a call ends, is in the labels, so that a run is a list of labels and
a statement about every run is one about every list.

* `run` — the state behind a run.
* `Always P` — every state of the run has `P`.
* `Careful good` — every step of the run is good.

## What is proved

* `run_invariant` — what holds at the start and is kept by each step holds behind the run.
* `always_of_careful` — what the good steps keep holds in every state of a careful run.
* `always_and_careful_iff`, `always_iff_careful` — and where a step that is not good breaks the
  property at once, the property holds in every state of a run exactly when the run is careful.
* `comes_iff` — a step function that uses its argument up comes to an end exactly when it comes to no other.
* `of_update` — what is read of the parties behind a step of one of them.
-/

namespace Runs

variable {σ ι : Type} (step : σ → ι → Option σ)

/-- The state behind a run, or nothing where a label cannot happen. -/
def run : σ → List ι → Option σ
  | s, [] => some s
  | s, l :: ls => (step s l).bind fun s' => run s' ls

/-- Every state of the run has the property. -/
def Always (P : σ → Prop) : σ → List ι → Prop
  | s, [] => P s
  | s, l :: ls => P s ∧ ∀ s', step s l = some s' → Always P s' ls

/-- Every step of the run is good in the state it is taken from. -/
def Careful (good : σ → ι → Prop) : σ → List ι → Prop
  | _, [] => True
  | s, l :: ls => ∀ s', step s l = some s' → good s l ∧ Careful good s' ls

variable {step}

@[simp] theorem run_nil (s : σ) : run step s [] = some s := rfl

theorem run_cons {s s' : σ} {l : ι} {ls : List ι} :
    run step s (l :: ls) = some s' ↔ ∃ t, step s l = some t ∧ run step t ls = some s' := Option.bind_eq_some_iff

theorem run_append {s s' : σ} {ls ks : List ι} :
    run step s (ls ++ ks) = some s' ↔ ∃ t, run step s ls = some t ∧ run step t ks = some s' := by
  induction ls generalizing s with
  | nil => simp
  | cons l ls ih =>
    rw [List.cons_append, run_cons]
    constructor
    · rintro ⟨t, ht, h⟩
      obtain ⟨u, hu, h⟩ := ih.1 h
      exact ⟨u, run_cons.2 ⟨t, ht, hu⟩, h⟩
    · rintro ⟨u, hu, h⟩
      obtain ⟨t, ht, hu⟩ := run_cons.1 hu
      exact ⟨t, ht, ih.2 ⟨u, hu, h⟩⟩

/-- **Invariants**: what every step keeps holds behind every run. -/
theorem run_invariant {I : σ → Prop} (hstep : ∀ s l s', I s → step s l = some s' → I s') {s s' : σ} {ls : List ι}
    (hs : I s) (h : run step s ls = some s') : I s' := by
  induction ls generalizing s with
  | nil =>
    cases h
    exact hs
  | cons l ls ih =>
    obtain ⟨t, ht, h⟩ := run_cons.1 h
    exact ih (hstep s l t hs ht) h

theorem Always.start {P : σ → Prop} {s : σ} {ls : List ι} (h : Always step P s ls) : P s := by
  cases ls with
  | nil => exact h
  | cons l ls => exact h.1

/-- What always holds holds at the end. -/
theorem Always.last {P : σ → Prop} {s s' : σ} {ls : List ι} (h : Always step P s ls) (hr : run step s ls = some s') :
    P s' := by
  induction ls generalizing s with
  | nil =>
    cases hr
    exact h
  | cons l ls ih =>
    obtain ⟨t, ht, hr⟩ := run_cons.1 hr
    exact ih (h.2 t ht) hr

/-- **Careful runs**: what the good steps keep always holds in a careful run. -/
theorem always_of_careful {I P : σ → Prop} {good : σ → ι → Prop}
    (hstep : ∀ s l s', I s → good s l → step s l = some s' → I s') (hP : ∀ s, I s → P s) {s : σ} {ls : List ι}
    (hs : I s) (h : Careful step good s ls) : Always step P s ls := by
  induction ls generalizing s with
  | nil => exact hP s hs
  | cons l ls ih =>
    refine ⟨hP s hs, ?_⟩
    intro s' hs'
    obtain ⟨hgood, hrest⟩ := h s' hs'
    exact ih (hstep s l s' hs hgood hs') hrest

/-- The invariant behind a careful run. -/
theorem Careful.invariant {I : σ → Prop} {good : σ → ι → Prop}
    (hstep : ∀ s l s', I s → good s l → step s l = some s' → I s') {s s' : σ} {ls : List ι}
    (h : Careful step good s ls) (hs : I s) (hr : run step s ls = some s') : I s' :=
  (always_of_careful hstep (fun _ h => h) hs h).last hr

/-- **Exactly the careful runs**: where a step that is not good breaks the property at once, or is itself
not as the run's steps should be. -/
theorem always_and_careful_iff {I P : σ → Prop} {good W : σ → ι → Prop}
    (hstep : ∀ s l s', I s → good s l → step s l = some s' → I s') (hP : ∀ s, I s → P s)
    (hW : ∀ s l s', I s → good s l → step s l = some s' → W s l)
    (hbad : ∀ s l s', I s → ¬good s l → step s l = some s' → W s l → ¬P s') {s : σ} {ls : List ι} (hs : I s) :
    Always step P s ls ∧ Careful step W s ls ↔ Careful step good s ls := by
  constructor
  · rintro ⟨h, hw⟩
    induction ls generalizing s with
    | nil => trivial
    | cons l ls ih =>
      intro s' hs'
      obtain ⟨hl, hw⟩ := hw s' hs'
      have hrest := h.2 s' hs'
      have hgood : good s l := by
        by_contra hnot
        exact hbad s l s' hs hnot hs' hl hrest.start
      exact ⟨hgood, ih (hstep s l s' hs hgood hs') hrest hw⟩
  · intro h
    refine ⟨always_of_careful hstep hP hs h, ?_⟩
    induction ls generalizing s with
    | nil => trivial
    | cons l ls ih =>
      intro s' hs'
      obtain ⟨hgood, hrest⟩ := h s' hs'
      exact ⟨hW s l s' hs hgood hs', ih (hstep s l s' hs hgood hs') hrest⟩

/-- Steps that are good wherever they are taken. -/
theorem careful_of_forall {good : σ → ι → Prop} {s : σ} {ls : List ι} (h : ∀ l ∈ ls, ∀ t, good t l) :
    Careful step good s ls := by
  induction ls generalizing s with
  | nil => trivial
  | cons l ls ih =>
    intro s' _
    exact ⟨h l List.mem_cons_self s, ih fun k hk => h k (List.mem_cons_of_mem _ hk)⟩

/-- Where a step that is not good breaks the property at once. -/
theorem always_iff_careful {I P : σ → Prop} {good : σ → ι → Prop}
    (hstep : ∀ s l s', I s → good s l → step s l = some s' → I s') (hP : ∀ s, I s → P s)
    (hbad : ∀ s l s', I s → ¬good s l → step s l = some s' → ¬P s') {s : σ} {ls : List ι} (hs : I s) :
    Always step P s ls ↔ Careful step good s ls := by
  have h : Always step P s ls ∧ Careful step (fun _ _ => True) s ls ↔ Careful step good s ls :=
    always_and_careful_iff hstep hP (fun _ _ _ _ _ _ => trivial)
      (fun s l s' hI hnot hl _ => hbad s l s' hI hnot hl) hs
  exact ⟨fun ha => h.1 ⟨ha, careful_of_forall fun _ _ _ => trivial⟩, fun hc => (h.2 hc).1⟩

/-- Where good steps are good by a weaker reading too. -/
theorem Careful.mono {good good' : σ → ι → Prop} {I : σ → Prop}
    (hstep : ∀ s l s', I s → good s l → step s l = some s' → I s') (hgood : ∀ s l s', I s → step s l = some s' →
      good s l → good' s l) {s : σ} {ls : List ι} (hs : I s) (h : Careful step good s ls) : Careful step good' s ls := by
  induction ls generalizing s with
  | nil => trivial
  | cons l ls ih =>
    intro s' hs'
    obtain ⟨hl, hrest⟩ := h s' hs'
    exact ⟨hgood s l s' hs hs' hl, ih (hstep s l s' hs hl hs') hrest⟩

/-- Whether a run is careful is decided by running it. -/
instance Careful.decidable {good : σ → ι → Prop} [∀ s l, Decidable (good s l)] : ∀ s ls, Decidable (Careful step good s ls)
  | _, [] => inferInstanceAs (Decidable True)
  | s, l :: ls =>
    have : ∀ s', Decidable (Careful step good s' ls) := fun s' => Careful.decidable s' ls
    inferInstanceAs (Decidable (∀ s' ∈ step s l, good s l ∧ Careful step good s' ls))

/-! ### Steps without a choice -/

section Deterministic

variable {f : σ → Option σ}

/-- What comes from a state by steps, when nobody has a choice. -/
def Comes (f : σ → Option σ) : σ → σ → Prop := Relation.ReflTransGen fun s t => f s = some t

theorem Comes.of_none {s t : σ} (h : Comes f s t) (hs : f s = none) : t = s := by
  rcases Relation.ReflTransGen.cases_head h with heq | ⟨u, hu, -⟩
  · exact heq.symm
  · rw [hs] at hu
    cases hu

theorem Comes.of_some {s t u : σ} (h : Comes f s t) (hs : f s = some u) : t = s ∨ Comes f u t := by
  rcases Relation.ReflTransGen.cases_head h with heq | ⟨v, hv, hrest⟩
  · exact .inl heq.symm
  · rw [hs] at hv
    cases hv
    exact .inr hrest

/-- **One end**: steps that use a state up come to an end exactly when there is no other end that they come to. -/
theorem comes_iff {rank : σ → ℕ} (hrank : ∀ s t, f s = some t → rank t < rank s) {e : σ} (he : f e = none) {s : σ} :
    Comes f s e ↔ ∀ t, Comes f s t → f t = none → t = e := by
  constructor
  · intro h
    induction h using Relation.ReflTransGen.head_induction_on with
    | refl => exact fun t ht _ => ht.of_none he
    | head hstep _ ih =>
      intro t ht hnone
      rcases ht.of_some hstep with rfl | ht
      · rw [hstep] at hnone
        cases hnone
      · exact ih t ht hnone
  · intro h
    induction hn : rank s using Nat.strongRecOn generalizing s with
    | _ n ih =>
      cases hs : f s with
      | none =>
        rw [h s .refl hs]
        exact .refl
      | some u =>
        have hlt := hrank s u hs
        rw [hn] at hlt
        have hu : Comes f u e := ih (rank u) hlt (fun t ht => h t (.head hs ht)) rfl
        exact .head hs hu

end Deterministic

/-! ### The parties -/

/-- The states of the parties are a function, and a step moves one of them: what is then read is the new state of that
party, or the state of another. -/
theorem of_update {κ α : Type*} [DecidableEq κ] {f : κ → α} {k k' : κ} {a b : α} (h : Function.update f k a k' = b) :
    (k' = k ∧ a = b) ∨ (k' ≠ k ∧ f k' = b) := by
  by_cases hk : k' = k
  · subst hk
    rw [Function.update_self] at h
    exact .inl ⟨rfl, h⟩
  · rw [Function.update_of_ne hk] at h
    exact .inr ⟨hk, h⟩

end Runs
