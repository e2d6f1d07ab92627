import Mathlib.Data.List.Basic
import Mathlib.Tactic.Common

/-!
# Scanners

A loop over the characters of a text that may peek at the next one, with a state, is
a `Scanner`: on each symbol it writes some symbols and goes to a next state, and at the
end it writes what its state still holds. An inner loop is a state of its own.

## What is proved

* `run_append` — a run over two texts is a run over the first, up to what is peeked at
  behind it, and a run over the second from the state that is reached.
* `run_comp` — a scanner that does not peek, over the output of another, is a scanner
  over the input of that.
* `sees_after` and `sees_emits` — a scanner does the same in front of two symbols that
  look the same to it.
-/

/-- A loop over symbols that may peek at the next one. -/
structure Scanner (σ α β : Type*) where
  /-- The next state. -/
  step : σ → α → Option α → σ
  /-- What is written on a symbol. -/
  out : σ → α → Option α → List β
  /-- What is written at the end. -/
  flush : σ → List β

namespace Scanner

variable {σ τ α β γ : Type*} (S : Scanner σ α β)

/-- What a scanner writes from a state on. -/
def run : σ → List α → List β
  | s, [] => S.flush s
  | s, a :: as => S.out s a as.head? ++ run (S.step s a as.head?) as

/-- The state behind a text that `p` follows. -/
def after : σ → List α → Option α → σ
  | s, [], _ => s
  | s, a :: as, p => after (S.step s a (as.head?.or p)) as p

/-- What is written on a text that `p` follows. -/
def emits : σ → List α → Option α → List β
  | _, [], _ => []
  | s, a :: as, p => S.out s a (as.head?.or p) ++ emits (S.step s a (as.head?.or p)) as p

@[simp] theorem run_nil (s : σ) : S.run s [] = S.flush s := rfl

theorem run_cons (s : σ) (a : α) (as : List α) :
    S.run s (a :: as) = S.out s a as.head? ++ S.run (S.step s a as.head?) as := rfl

@[simp] theorem after_nil (s : σ) (p : Option α) : S.after s [] p = s := rfl

@[simp] theorem after_cons (s : σ) (a : α) (as : List α) (p : Option α) :
    S.after s (a :: as) p = S.after (S.step s a (as.head?.or p)) as p := rfl

@[simp] theorem emits_nil (s : σ) (p : Option α) : S.emits s [] p = [] := rfl

@[simp] theorem emits_cons (s : σ) (a : α) (as : List α) (p : Option α) :
    S.emits s (a :: as) p = S.out s a (as.head?.or p) ++ S.emits (S.step s a (as.head?.or p)) as p := rfl

theorem run_append (s : σ) (u v : List α) :
    S.run s (u ++ v) = S.emits s u v.head? ++ S.run (S.after s u v.head?) v := by
  induction u generalizing s with
  | nil => rfl
  | cons a u ih => rw [List.cons_append, run_cons, ih, List.head?_append, emits_cons, after_cons, List.append_assoc]

theorem after_append (s : σ) (u v : List α) (p : Option α) :
    S.after s (u ++ v) p = S.after (S.after s u (v.head?.or p)) v p := by
  induction u generalizing s with
  | nil => rfl
  | cons a u ih => rw [List.cons_append, after_cons, ih, List.head?_append, Option.or_assoc, after_cons]

theorem emits_append (s : σ) (u v : List α) (p : Option α) :
    S.emits s (u ++ v) p = S.emits s u (v.head?.or p) ++ S.emits (S.after s u (v.head?.or p)) v p := by
  induction u generalizing s with
  | nil => rfl
  | cons a u ih =>
    rw [List.cons_append, emits_cons, ih, List.head?_append, Option.or_assoc, emits_cons, after_cons, List.append_assoc]

/-- What holds of a state and the symbol that it has peeked at holds behind every text. -/
theorem after_invariant {I : σ → Option α → Prop} (hstep : ∀ s a p, I s (some a) → I (S.step s a p) p) {s : σ}
    {u : List α} {p : Option α} (hs : I s (u.head?.or p)) : I (S.after s u p) p := by
  induction u generalizing s with
  | nil => simpa using hs
  | cons a u ih => exact ih (hstep s a _ (by simpa using hs))

/-! ### Two symbols that look the same -/

/-- Two symbols that come next look the same. -/
def Sees (p q : Option α) : Prop := ∀ s a, S.step s a p = S.step s a q ∧ S.out s a p = S.out s a q

variable {S}

theorem sees_after {p q : Option α} (h : S.Sees p q) (s : σ) (u : List α) : S.after s u p = S.after s u q := by
  induction u generalizing s with
  | nil => rfl
  | cons a u ih =>
    cases u with
    | nil => exact (h s a).1
    | cons b u => exact ih _

theorem sees_emits {p q : Option α} (h : S.Sees p q) (s : σ) (u : List α) : S.emits s u p = S.emits s u q := by
  induction u generalizing s with
  | nil => rfl
  | cons a u ih =>
    cases u with
    | nil =>
      show S.out s a p ++ [] = S.out s a q ++ []
      rw [(h s a).2]
    | cons b u => exact congrArg (S.out s a (some b) ++ ·) (ih _)

/-! ### One scanner behind another -/

/-- The second scanner reads what the first writes. -/
def comp (S : Scanner σ α β) (T : Scanner τ β γ) : Scanner (σ × τ) α γ where
  step s a p := (S.step s.1 a p, T.after s.2 (S.out s.1 a p) none)
  out s a p := T.emits s.2 (S.out s.1 a p) none
  flush s := T.run s.2 (S.flush s.1)

/-- A scanner that does not peek. -/
def Blind (T : Scanner τ β γ) : Prop := ∀ p q, T.Sees p q

theorem Blind.after_append {T : Scanner τ β γ} (hT : T.Blind) (t : τ) (u v : List β) :
    T.after t (u ++ v) none = T.after (T.after t u none) v none := by
  rw [T.after_append, sees_after (hT (v.head?.or none) none)]

theorem Blind.emits_append {T : Scanner τ β γ} (hT : T.Blind) (t : τ) (u v : List β) :
    T.emits t (u ++ v) none = T.emits t u none ++ T.emits (T.after t u none) v none := by
  rw [T.emits_append, sees_after (hT (v.head?.or none) none), sees_emits (hT (v.head?.or none) none)]

theorem run_comp {S : Scanner σ α β} {T : Scanner τ β γ} (hT : T.Blind) (s : σ) (t : τ) (as : List α) :
    (S.comp T).run (s, t) as = T.run t (S.run s as) := by
  induction as generalizing s t with
  | nil => rfl
  | cons a as ih =>
    rw [run_cons, run_cons, run_append, ← sees_after (hT none _), ← sees_emits (hT none _), ← ih]
    rfl

theorem Sees.comp {S : Scanner σ α β} {p q : Option α} (h : S.Sees p q) (T : Scanner τ β γ) : (S.comp T).Sees p q := by
  intro s a
  simp only [Scanner.comp, (h s.1 a).1, (h s.1 a).2, and_self]

/-- The first scanner goes its own way, and the second goes over what it writes. -/
theorem comp_after_emits {S : Scanner σ α β} {T : Scanner τ β γ} (hT : T.Blind) (s : σ) (t : τ) (u : List α)
    (p : Option α) :
    (S.comp T).after (s, t) u p = (S.after s u p, T.after t (S.emits s u p) none) ∧
      (S.comp T).emits (s, t) u p = T.emits t (S.emits s u p) none := by
  induction u generalizing s t with
  | nil => exact ⟨rfl, rfl⟩
  | cons a u ih =>
    rw [S.emits_cons, hT.after_append, hT.emits_append]
    obtain ⟨hafter, hemits⟩ := ih (S.step s a (u.head?.or p)) (T.after t (S.out s a (u.head?.or p)) none)
    exact ⟨hafter, congrArg (T.emits t (S.out s a (u.head?.or p)) none ++ ·) hemits⟩

theorem comp_after {S : Scanner σ α β} {T : Scanner τ β γ} (hT : T.Blind) (s : σ) (t : τ) (u : List α) (p : Option α) :
    (S.comp T).after (s, t) u p = (S.after s u p, T.after t (S.emits s u p) none) := (comp_after_emits hT s t u p).1

theorem comp_emits {S : Scanner σ α β} {T : Scanner τ β γ} (hT : T.Blind) (s : σ) (t : τ) (u : List α) (p : Option α) :
    (S.comp T).emits (s, t) u p = T.emits t (S.emits s u p) none := (comp_after_emits hT s t u p).2

end Scanner
