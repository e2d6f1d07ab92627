import Latiq.Library.Unwind

/-!
# Two runs of one computation

`Act.Agrees R p`: from two states that `R` relates, `p` ends in one way, and leaves two states that `R` relates. Every
combinator agrees where its parts do, so this is proved of the primitive steps only.
-/

namespace Unwind

namespace Act

universe u

variable {σ ε ε' α β : Type u} {R : σ → σ → Prop}

/-- Two runs of `p` end in one way, in related states. -/
def Agrees (R : σ → σ → Prop) (p : Act σ ε α) : Prop := ∀ s s', R s s' → (p s').1 = (p s).1 ∧ R (p s).2 (p s').2

theorem agrees_pure (a : α) : Agrees R (pure a : Act σ ε α) := fun _ _ h => ⟨rfl, h⟩

theorem agrees_fail (e : ε) : Agrees R (fail e : Act σ ε α) := fun _ _ h => ⟨rfl, h⟩

theorem agrees_unwind : Agrees R (unwind : Act σ ε α) := fun _ _ h => ⟨rfl, h⟩

theorem agrees_lift {f : σ → Except ε α × σ} (h : ∀ s s', R s s' → (f s').1 = (f s).1 ∧ R (f s).2 (f s').2) :
    Agrees R (lift f) := by
  intro s s' hs
  obtain ⟨hval, hstate⟩ := h s s' hs
  exact ⟨congrArg Ended.ofExcept hval, hstate⟩

theorem Agrees.bind {p : Act σ ε α} {f : α → Act σ ε β} (hp : Agrees R p) (hf : ∀ a, Agrees R (f a)) :
    Agrees R (p >>= f) := by
  intro s s' hs
  obtain ⟨hval, hstate⟩ := hp s s' hs
  rw [bind_apply, bind_apply]
  rcases hp' : p s' with ⟨o, t'⟩
  rw [hp'] at hval hstate
  rcases hp : p s with ⟨a | e | _, t⟩ <;> rw [hp] at hval hstate <;> subst hval
  · exact hf a t t' hstate
  · exact ⟨rfl, hstate⟩
  · exact ⟨rfl, hstate⟩

theorem Agrees.mapErr {p : Act σ ε α} (hp : Agrees R p) (f : ε → ε') : Agrees R (mapErr f p) := by
  intro s s' hs
  obtain ⟨hval, hstate⟩ := hp s s' hs
  exact ⟨congrArg (Ended.mapErr f) hval, hstate⟩

theorem Agrees.attempt {p : Act σ ε α} (hp : Agrees R p) : Agrees R (attempt p : Act σ ε' _) := by
  intro s s' hs
  obtain ⟨hval, hstate⟩ := hp s s' hs
  unfold Act.attempt
  rcases hp' : p s' with ⟨o, t'⟩
  rw [hp'] at hval hstate
  rcases hp : p s with ⟨a | e | _, t⟩ <;> rw [hp] at hval hstate <;> subst hval <;> exact ⟨rfl, hstate⟩

theorem Agrees.andFinally {p : Act σ ε α} {d : Ended ε α → σ → σ} (hp : Agrees R p)
    (hd : ∀ o s s', R s s' → R (d o s) (d o s')) : Agrees R (andFinally p d) := by
  intro s s' hs
  obtain ⟨hval, hstate⟩ := hp s s' hs
  refine ⟨hval, ?_⟩
  show R (d (p s).1 (p s).2) (d (p s').1 (p s').2)
  rw [hval]
  exact hd _ _ _ hstate

end Act

end Unwind
