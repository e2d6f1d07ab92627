import Mathlib.Data.List.Forall2
import Mathlib.Data.List.Infix

/-!
# Wildcard patterns

A pattern is a list of which some members stand for others: for any list, or for any one member. The rest stand for
themselves. Which members those are is the pattern language's, a `Role` for each.

`Matches` says what a pattern means, and `matchesList` decides it.
-/

namespace Wildcard

/-- What a member of a pattern stands for. -/
inductive Role where
  | anyList
  | anyOne
  | itself
  deriving DecidableEq, Repr

section

variable {α : Type} (role : α → Role)

/-- The member of a pattern stands for the list. -/
def Stands (c : α) (u : List α) : Prop :=
  match role c with
  | .anyList => True
  | .anyOne => u.length = 1
  | .itself => u = [c]

/-- A list is what the members of the pattern stand for, one behind the other. -/
def Matches (p s : List α) : Prop := ∃ us, List.Forall₂ (Stands role) p us ∧ s = us.flatten

variable [DecidableEq α]

/-- A match, from the front. -/
def matchesList : List α → List α → Bool
  | [], s => s.isEmpty
  | c :: p, s =>
    match role c with
    | .anyList => s.tails.any (matchesList p)
    | .anyOne =>
      match s with
      | [] => false
      | _ :: s => matchesList p s
    | .itself =>
      match s with
      | [] => false
      | d :: s => d = c && matchesList p s

end

section

variable {α β : Type} {role role' : α → Role} {p q s : List α}

theorem matches_nil : Matches role [] s ↔ s = [] := by
  constructor
  · rintro ⟨_, ⟨⟩, rfl⟩
    rfl
  · rintro rfl
    exact ⟨[], .nil, rfl⟩

theorem matches_cons {c : α} : Matches role (c :: p) s ↔ ∃ u t, Stands role c u ∧ Matches role p t ∧ s = u ++ t := by
  constructor
  · rintro ⟨us, hus, rfl⟩
    cases hus with
    | @cons _ u _ us hc hp => exact ⟨u, us.flatten, hc, ⟨us, hp, rfl⟩, List.flatten_cons⟩
  · rintro ⟨u, _, hc, ⟨us, hp, rfl⟩, rfl⟩
    exact ⟨u :: us, .cons hc hp, List.flatten_cons.symm⟩

theorem matches_append : Matches role (p ++ q) s ↔ ∃ t u, Matches role p t ∧ Matches role q u ∧ s = t ++ u := by
  induction p generalizing s with
  | nil => simp [matches_nil]
  | cons c p ih =>
    simp only [List.cons_append, matches_cons, ih]
    constructor
    · rintro ⟨u, _, hc, ⟨t, v, hp, hq, rfl⟩, rfl⟩
      exact ⟨u ++ t, v, ⟨u, t, hc, hp, rfl⟩, hq, (List.append_assoc _ _ _).symm⟩
    · rintro ⟨_, v, ⟨u, t, hc, hp, rfl⟩, hq, rfl⟩
      exact ⟨u, t ++ v, hc, ⟨t, v, hp, hq, rfl⟩, List.append_assoc _ _ _⟩

/-- **The decision is the meaning.** -/
theorem matchesList_iff [DecidableEq α] : matchesList role p s = true ↔ Matches role p s := by
  induction p generalizing s with
  | nil => rw [matchesList, List.isEmpty_iff, matches_nil]
  | cons c p ih =>
    rw [matches_cons]
    cases hrole : role c with
    | anyList =>
      simp only [matchesList, Stands, hrole, List.any_eq_true, List.mem_tails, ih, true_and]
      constructor
      · rintro ⟨t, ⟨u, rfl⟩, ht⟩
        exact ⟨u, t, ht, rfl⟩
      · rintro ⟨u, t, ht, rfl⟩
        exact ⟨t, List.suffix_append u t, ht⟩
    | anyOne =>
      simp only [matchesList, Stands, hrole, List.length_eq_one_iff]
      cases s with
      | nil => simp
      | cons d s =>
        dsimp only
        rw [ih]
        constructor
        · exact fun h => ⟨[d], s, ⟨d, rfl⟩, h, rfl⟩
        · rintro ⟨_, t, ⟨e, rfl⟩, ht, heq⟩
          obtain ⟨-, rfl⟩ := List.cons.inj heq
          exact ht
    | itself =>
      simp only [matchesList, Stands, hrole]
      cases s with
      | nil => simp
      | cons d s =>
        simp only [Bool.and_eq_true, decide_eq_true_eq, ih]
        constructor
        · rintro ⟨rfl, h⟩
          exact ⟨[d], s, rfl, h, rfl⟩
        · rintro ⟨_, t, rfl, ht, heq⟩
          obtain ⟨rfl, rfl⟩ := List.cons.inj heq
          exact ⟨rfl, ht⟩

/-- What may stand for more matches more. -/
theorem Matches.mono (h : Matches role p s) (hle : ∀ c ∈ p, ∀ u, Stands role c u → Stands role' c u) :
    Matches role' p s := by
  induction p generalizing s with
  | nil => exact matches_nil.2 (matches_nil.1 h)
  | cons c p ih =>
    obtain ⟨u, t, hc, hp, rfl⟩ := matches_cons.1 h
    exact matches_cons.2 ⟨u, t, hle c List.mem_cons_self u hc,
      ih hp fun d hd => hle d (List.mem_cons_of_mem c hd), rfl⟩

/-- A pattern whose members are written in another way. -/
theorem matches_map_left {f : α → α} (h : ∀ c ∈ p, ∀ u, Stands role (f c) u ↔ Stands role' c u) :
    Matches role (p.map f) s ↔ Matches role' p s := by
  induction p generalizing s with
  | nil => rw [List.map_nil, matches_nil, matches_nil]
  | cons c p ih =>
    simp only [List.map_cons, matches_cons, h c List.mem_cons_self, ih fun d hd => h d (List.mem_cons_of_mem c hd)]

/-- What stands for itself is in each list that the pattern matches. -/
theorem Matches.mem (h : Matches role p s) {c : α} (hc : c ∈ p) (hrole : role c = .itself) : c ∈ s := by
  induction p generalizing s with
  | nil => cases hc
  | cons d p ih =>
    obtain ⟨u, t, hd, hp, rfl⟩ := matches_cons.1 h
    obtain rfl | hc := List.mem_cons.1 hc
    · have hu : u = [c] := by simpa only [Stands, hrole] using hd
      rw [hu]
      exact List.mem_cons_self
    · exact List.mem_append_right u (ih hp hc)

/-- A pattern matches the list of which each member stands alone for what it may. -/
theorem matches_map (f : α → β) (g : α → β) (role : β → Role) (h : ∀ c ∈ p, Stands role (f c) [g c]) :
    Matches role (p.map f) (p.map g) := by
  induction p with
  | nil => exact matches_nil.2 rfl
  | cons c p ih =>
    exact matches_cons.2 ⟨[g c], p.map g, h c List.mem_cons_self, ih fun d hd => h d (List.mem_cons_of_mem c hd), rfl⟩

/-- Without wildcards, a pattern is matched by itself only. -/
theorem matches_of_itself (h : ∀ c ∈ p, role c = .itself) : Matches role p s ↔ s = p := by
  induction p generalizing s with
  | nil => exact matches_nil
  | cons c p ih =>
    have hstands (u : List α) : Stands role c u ↔ u = [c] := by simp only [Stands, h c List.mem_cons_self]
    simp only [matches_cons, hstands, ih fun d hd => h d (List.mem_cons_of_mem c hd)]
    constructor
    · rintro ⟨_, _, rfl, rfl, rfl⟩
      rfl
    · rintro rfl
      exact ⟨[c], p, rfl, rfl, rfl⟩

/-- Between two that stand for any list, a pattern is looked for. -/
theorem matches_between {c : α} (hc : role c = .anyList) :
    Matches role (c :: p ++ [c]) s ↔ ∃ t, Matches role p t ∧ t <:+: s := by
  have hstands (u : List α) : Stands role c u := by simp only [Stands, hc]
  simp only [List.cons_append, matches_cons, matches_append, hstands, matches_nil, true_and]
  constructor
  · rintro ⟨u, _, ⟨t, _, ht, ⟨v, _, rfl, rfl⟩, rfl⟩, rfl⟩
    exact ⟨t, ht, u, v, by rw [List.append_assoc, List.append_nil]⟩
  · rintro ⟨t, ht, u, v, rfl⟩
    exact ⟨u, t ++ v, ⟨t, v, ht, ⟨v, [], rfl, (List.append_nil v).symm⟩, rfl⟩, List.append_assoc u t v⟩

end

end Wildcard
