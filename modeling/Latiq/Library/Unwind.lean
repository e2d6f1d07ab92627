import Mathlib.Logic.Relation

/-!
# Computations that end, fail or unwind

A stateful computation of a language with panics ends in one of three ways: it
returns a value, it returns an error, or it unwinds. `Act σ ε α` is such a
computation over the state `σ`. The combinators are the ones such a language
has: sequencing stops at the first error (`bind`, the `?` operator), an error
can be looked at and an unwinding cannot (`attempt`), and a destructor runs
whichever way the block it belongs to is left (`andFinally`).

## What is proved

* `bind_of_ok`, `bind_of_err`, `bind_of_unwound` and `bind_eq_ok` — sequencing,
  one equation for each way its first part ends.
* `Act.NoUnwind p` says that `p` never unwinds; the combinators keep it.
* `Act.Keeps R p` says that `p` takes every state to one that is `R`-related to
  it, however `p` ends. For a reflexive and transitive `R` every combinator
  keeps what its parts keep, so a guarantee is proved of the primitive steps
  only.
-/

namespace Unwind

universe u

/-- How a computation that may panic ends. -/
inductive Ended (ε α : Type u) where
  /-- It returned a value. -/
  | ok (a : α)
  /-- It returned an error. -/
  | err (e : ε)
  /-- It unwound. -/
  | unwound
  deriving DecidableEq, Repr

namespace Ended

variable {ε ε' α : Type u}

/-- Whether a value was returned. -/
def isOk : Ended ε α → Bool
  | .ok _ => true
  | _ => false

/-- Rewrite the error. -/
def mapErr (f : ε → ε') : Ended ε α → Ended ε' α
  | .ok a => .ok a
  | .err e => .err (f e)
  | .unwound => .unwound

@[simp] theorem mapErr_eq_ok {f : ε → ε'} {x : Ended ε α} {a : α} : x.mapErr f = .ok a ↔ x = .ok a := by
  cases x <;> simp [mapErr]

@[simp] theorem mapErr_eq_unwound {f : ε → ε'} {x : Ended ε α} : x.mapErr f = .unwound ↔ x = .unwound := by
  cases x <;> simp [mapErr]

/-- The outcome of a fallible operation that does not panic. -/
def ofExcept : Except ε α → Ended ε α
  | .ok a => .ok a
  | .error e => .err e

end Ended

/-- A computation over the state `σ` that fails with `ε`, returns `α`, or unwinds. -/
def Act (σ ε α : Type u) : Type u := σ → Ended ε α × σ

namespace Act

variable {σ ε ε' α β : Type u}

/-- Return a value and leave the state alone. -/
def ret (a : α) : Act σ ε α := fun s => (.ok a, s)

/-- Fail and leave the state alone. -/
def fail (e : ε) : Act σ ε α := fun s => (.err e, s)

/-- Panic. -/
def unwind : Act σ ε α := fun s => (.unwound, s)

/-- Run `p`, and `f` on its value; an error or an unwinding of `p` skips `f`. -/
def bind (p : Act σ ε α) (f : α → Act σ ε β) : Act σ ε β := fun s =>
  match p s with
  | (.ok a, t) => f a t
  | (.err e, t) => (.err e, t)
  | (.unwound, t) => (.unwound, t)

instance : Monad (Act σ ε) where
  pure := ret
  bind := bind

/-- A step of the state that cannot fail. -/
def modify (f : σ → σ) : Act σ ε PUnit := fun s => (.ok ⟨⟩, f s)

/-- A fallible step of the state that does not panic. -/
def lift (f : σ → Except ε α × σ) : Act σ ε α := fun s => (.ofExcept (f s).1, (f s).2)

/-- Run `p` and rewrite its error. -/
def mapErr (f : ε → ε') (p : Act σ ε α) : Act σ ε' α := fun s => ((p s).1.mapErr f, (p s).2)

/-- Run `p` and hand its error to the caller as a value; an unwinding goes through. -/
def attempt (p : Act σ ε α) : Act σ ε' (Except ε α) := fun s =>
  match p s with
  | (.ok a, t) => (.ok (.ok a), t)
  | (.err e, t) => (.ok (.error e), t)
  | (.unwound, t) => (.unwound, t)

/-- Run `p`, then the destructor `d` on the state `p` left, whichever way it left it. -/
def andFinally (p : Act σ ε α) (d : Ended ε α → σ → σ) : Act σ ε α := fun s =>
  ((p s).1, d (p s).1 (p s).2)

/-- Run `p` for its effect. -/
def void (p : Act σ ε α) : Act σ ε PUnit := bind p fun _ => ret ⟨⟩

/-! ### Sequencing, one equation for each way to end -/

@[simp] theorem pure_apply (a : α) (s : σ) : (pure a : Act σ ε α) s = (.ok a, s) := rfl

@[simp] theorem fail_apply (e : ε) (s : σ) : (fail e : Act σ ε α) s = (.err e, s) := rfl

@[simp] theorem unwind_apply (s : σ) : (unwind : Act σ ε α) s = (.unwound, s) := rfl

@[simp] theorem modify_apply (f : σ → σ) (s : σ) : (modify f : Act σ ε PUnit) s = (.ok ⟨⟩, f s) := rfl

@[simp] theorem mapErr_apply (f : ε → ε') (p : Act σ ε α) (s : σ) :
    mapErr f p s = ((p s).1.mapErr f, (p s).2) := rfl

theorem lift_apply (f : σ → Except ε α × σ) (s : σ) : lift f s = (.ofExcept (f s).1, (f s).2) := rfl

@[simp] theorem lift_snd (f : σ → Except ε α × σ) (s : σ) : (lift f s).2 = (f s).2 := rfl

theorem bind_apply (p : Act σ ε α) (f : α → Act σ ε β) (s : σ) :
    (p >>= f) s = match p s with
      | (.ok a, t) => f a t
      | (.err e, t) => (.err e, t)
      | (.unwound, t) => (.unwound, t) := rfl

theorem bind_of_ok {p : Act σ ε α} {s t : σ} {a : α} (h : p s = (.ok a, t)) (f : α → Act σ ε β) :
    (p >>= f) s = f a t := by
  rw [bind_apply, h]

theorem bind_of_err {p : Act σ ε α} {s t : σ} {e : ε} (h : p s = (.err e, t)) (f : α → Act σ ε β) :
    (p >>= f) s = (.err e, t) := by
  rw [bind_apply, h]

theorem bind_of_unwound {p : Act σ ε α} {s t : σ} (h : p s = (.unwound, t)) (f : α → Act σ ε β) :
    (p >>= f) s = (.unwound, t) := by
  rw [bind_apply, h]

theorem attempt_of_ok {p : Act σ ε α} {s t : σ} {a : α} (h : p s = (.ok a, t)) :
    (attempt p : Act σ ε' _) s = (.ok (.ok a), t) := by
  rw [attempt, h]

theorem attempt_of_err {p : Act σ ε α} {s t : σ} {e : ε} (h : p s = (.err e, t)) :
    (attempt p : Act σ ε' _) s = (.ok (.error e), t) := by
  rw [attempt, h]

theorem void_of_ok {p : Act σ ε α} {s t : σ} {a : α} (h : p s = (.ok a, t)) : void p s = (.ok ⟨⟩, t) := bind_of_ok h _

theorem void_of_err {p : Act σ ε α} {s t : σ} {e : ε} (h : p s = (.err e, t)) : void p s = (.err e, t) :=
  bind_of_err h _

theorem void_of_unwound {p : Act σ ε α} {s t : σ} (h : p s = (.unwound, t)) : void p s = (.unwound, t) :=
  bind_of_unwound h _

@[simp] theorem void_snd (p : Act σ ε α) (s : σ) : (void p s).2 = (p s).2 := by
  unfold void bind
  rcases p s with ⟨_ | _ | _, t⟩ <;> rfl

@[simp] theorem void_eq_err {p : Act σ ε α} {s : σ} {e : ε} : (void p s).1 = .err e ↔ (p s).1 = .err e := by
  unfold void bind
  rcases p s with ⟨_ | _ | _, t⟩ <;> simp [ret]

/-- A sequence returns a value only through a value of its first part. -/
theorem bind_eq_ok {p : Act σ ε α} {f : α → Act σ ε β} {s u : σ} {b : β} :
    (p >>= f) s = (.ok b, u) ↔ ∃ a t, p s = (.ok a, t) ∧ f a t = (.ok b, u) := by
  rw [bind_apply]
  constructor
  · intro h
    rcases hp : p s with ⟨a | e | _, t⟩ <;> rw [hp] at h
    · exact ⟨a, t, rfl, h⟩
    · simp at h
    · simp at h
  · rintro ⟨a, t, hp, h⟩
    rw [hp]
    exact h

theorem bind_assoc {γ : Type u} (p : Act σ ε α) (f : α → Act σ ε β) (k : β → Act σ ε γ) :
    (p >>= f) >>= k = p >>= fun a => f a >>= k := by
  funext s
  rw [bind_apply, bind_apply, bind_apply]
  rcases p s with ⟨a | e | _, t⟩ <;> rfl

@[simp] theorem pure_bind (a : α) (f : α → Act σ ε β) : (pure a : Act σ ε α) >>= f = f a := rfl

theorem mapErr_bind (f : ε → ε') (p : Act σ ε α) (k : α → Act σ ε β) :
    mapErr f (p >>= k) = mapErr f p >>= fun a => mapErr f (k a) := by
  funext s
  rw [mapErr_apply, bind_apply, bind_apply, mapErr_apply]
  rcases p s with ⟨a | e | _, t⟩ <;> rfl

@[simp] theorem mapErr_pure (f : ε → ε') (a : α) : mapErr f (pure a : Act σ ε α) = pure a := rfl

@[simp] theorem mapErr_fail (f : ε → ε') (e : ε) : mapErr f (fail e : Act σ ε α) = fail (f e) := rfl

theorem void_eq_bind (p : Act σ ε α) : void p = p >>= fun _ => pure ⟨⟩ := rfl

/-! ### Computations that do not panic -/

/-- `p` never unwinds. -/
def NoUnwind (p : Act σ ε α) : Prop := ∀ s, (p s).1 ≠ .unwound

theorem noUnwind_pure (a : α) : NoUnwind (pure a : Act σ ε α) := fun _ => by simp

theorem noUnwind_fail (e : ε) : NoUnwind (fail e : Act σ ε α) := fun _ => by simp

theorem noUnwind_lift (f : σ → Except ε α × σ) : NoUnwind (lift f) := by
  intro s
  rw [lift_apply]
  rcases (f s).1 with e | a <;> simp [Ended.ofExcept]

theorem NoUnwind.bind {p : Act σ ε α} {f : α → Act σ ε β} (hp : NoUnwind p) (hf : ∀ a, NoUnwind (f a)) :
    NoUnwind (p >>= f) := by
  intro s
  have h := hp s
  rw [bind_apply]
  rcases hs : p s with ⟨a | e | _, t⟩ <;> rw [hs] at h
  · exact hf a t
  · simp
  · exact absurd rfl h

theorem NoUnwind.mapErr {p : Act σ ε α} (hp : NoUnwind p) (f : ε → ε') : NoUnwind (mapErr f p) := by
  intro s h
  rw [mapErr_apply, Ended.mapErr_eq_unwound] at h
  exact hp s h

theorem NoUnwind.attempt {p : Act σ ε α} (hp : NoUnwind p) : NoUnwind (attempt p : Act σ ε' _) := by
  intro s
  have h := hp s
  unfold Act.attempt
  rcases hs : p s with ⟨a | e | _, t⟩ <;> rw [hs] at h
  · simp
  · simp
  · exact absurd rfl h

/-! ### Guarantees

`Keeps R p`: whichever way `p` ends, the state it leaves is `R`-related to the
state it started in. -/

/-- `p` takes every state to an `R`-related one. -/
def Keeps (R : σ → σ → Prop) (p : Act σ ε α) : Prop := ∀ s, R s (p s).2

section Guarantees

variable {R : σ → σ → Prop}

theorem Keeps.of_state_eq [Std.Refl R] {p : Act σ ε α} (h : ∀ s, (p s).2 = s) : Keeps R p := by
  intro s
  rw [h s]
  exact Std.Refl.refl s

theorem keeps_pure [Std.Refl R] (a : α) : Keeps R (pure a : Act σ ε α) := .of_state_eq fun _ => rfl

theorem keeps_fail [Std.Refl R] (e : ε) : Keeps R (fail e : Act σ ε α) := .of_state_eq fun _ => rfl

theorem keeps_unwind [Std.Refl R] : Keeps R (unwind : Act σ ε α) := .of_state_eq fun _ => rfl

/-- A sequence keeps what its first part keeps and its second part keeps for the values of the
first. -/
theorem Keeps.bind_of_value [IsTrans σ R] {p : Act σ ε α} {f : α → Act σ ε β} (hp : Keeps R p)
    (hf : ∀ s a t, p s = (.ok a, t) → R t (f a t).2) : Keeps R (p >>= f) := by
  intro s
  have h := hp s
  rw [bind_apply]
  rcases hs : p s with ⟨a | e | _, t⟩ <;> rw [hs] at h
  · exact IsTrans.trans _ _ _ h (hf s a t hs)
  · exact h
  · exact h

theorem Keeps.bind [IsTrans σ R] {p : Act σ ε α} {f : α → Act σ ε β} (hp : Keeps R p)
    (hf : ∀ a, Keeps R (f a)) : Keeps R (p >>= f) :=
  hp.bind_of_value fun _ a t _ => hf a t

theorem Keeps.mapErr {p : Act σ ε α} (hp : Keeps R p) (f : ε → ε') : Keeps R (mapErr f p) := hp

theorem Keeps.attempt {p : Act σ ε α} (hp : Keeps R p) : Keeps R (attempt p : Act σ ε' _) := by
  intro s
  have h := hp s
  unfold Act.attempt
  rcases hs : p s with ⟨a | e | _, t⟩ <;> rw [hs] at h <;> exact h

theorem Keeps.andFinally [IsTrans σ R] {p : Act σ ε α} {d : Ended ε α → σ → σ} (hp : Keeps R p)
    (hd : ∀ o t, R t (d o t)) : Keeps R (andFinally p d) :=
  fun s => IsTrans.trans _ _ _ (hp s) (hd _ _)

end Guarantees

end Act

end Unwind
