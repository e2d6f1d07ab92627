import Latiq.Library.RustStr

/-!
# Words of a text

A text cut at a separator is the list of its words, with an empty word between two separators that stand side by side. A
phrase is a list of words.

## What is proved

* `spaced_infix_iff` — a phrase between separators is found in a text just where its words stand side by side among the
  words of the text.
* `infix_run_iff` — how long a run of separators is does not matter to a phrase, unless the run stands inside it.
-/

namespace Words

section

variable {α : Type*} [BEq α] [LawfulBEq α] {x : α} {phrase : List (List α)}

/-- A phrase between separators. -/
def spaced (x : α) (phrase : List (List α)) : List α := x :: ([x].intercalate phrase ++ [x])

theorem splitOn_between (t : List α) : (x :: (t ++ [x])).splitOn x = [] :: (t.splitOn x ++ [[]]) := by
  have hfirst : (x :: (t ++ [x])).splitOn x = List.splitOn x [] ++ (t ++ [x]).splitOn x :=
    List.splitOn_append_cons_self [] (t ++ [x])
  rw [hfirst, List.splitOn_append_cons_self, List.splitOn_nil]
  rfl

theorem splitOn_spaced (u v : List α) (hne : phrase ≠ []) (h : ∀ w ∈ phrase, x ∉ w) :
    (u ++ spaced x phrase ++ v).splitOn x = u.splitOn x ++ (phrase ++ v.splitOn x) := by
  have hassoc : u ++ spaced x phrase ++ v = u ++ x :: ([x].intercalate phrase ++ x :: v) := by simp [spaced]
  rw [hassoc, List.splitOn_append_cons_self, List.splitOn_append_cons_self, List.splitOn_intercalate x h hne]

/-- Texts with the same words are the same. -/
theorem eq_of_splitOn_eq {s t : List α} (h : s.splitOn x = t.splitOn x) : s = t := by
  have hs : [x].intercalate (s.splitOn x) = s := List.intercalate_splitOn x
  rw [← hs, h, List.intercalate_splitOn]

/-- **A phrase between separators** is found just where its words stand side by side. -/
theorem spaced_infix_iff {t : List α} (hne : phrase ≠ []) (h : ∀ w ∈ phrase, x ∉ w) :
    spaced x phrase <:+: x :: (t ++ [x]) ↔ phrase <:+: t.splitOn x := by
  constructor
  · rintro ⟨u, v, huv⟩
    have hwords := congrArg (List.splitOn x) huv
    rw [splitOn_spaced u v hne h, splitOn_between] at hwords
    -- What is before and behind the phrase has a first and a last word, which are those at the ends.
    obtain ⟨p, us, hu⟩ := List.exists_cons_of_ne_nil (List.splitOn_ne_nil x u)
    obtain ⟨vs, l, hv⟩ := (List.eq_nil_or_concat' (v.splitOn x)).resolve_left (List.splitOn_ne_nil x v)
    rw [hu, hv, List.cons_append, List.cons.injEq] at hwords
    have hinner : us ++ (phrase ++ vs) ++ [l] = t.splitOn x ++ [[]] := by simpa using hwords.2
    exact ⟨us, vs, by simpa using (List.append_inj' hinner rfl).1⟩
  · rintro ⟨p, s, hps⟩
    have hmem : ∀ w ∈ p ++ phrase ++ s, x ∉ w := fun w hw => RustStr.not_mem_of_mem_splitOn (hps ▸ hw)
    have hfirst : ∀ w ∈ [] :: p, x ∉ w := by
      intro w hw
      rcases List.mem_cons.1 hw with rfl | hw
      · exact List.not_mem_nil
      · exact hmem w (by simp [hw])
    have hlast : ∀ w ∈ s ++ [[]], x ∉ w := by
      intro w hw
      rcases List.mem_append.1 hw with hw | hw
      · exact hmem w (by simp [hw])
      · rw [List.mem_singleton.1 hw]
        exact List.not_mem_nil
    refine ⟨[x].intercalate ([] :: p), [x].intercalate (s ++ [[]]), eq_of_splitOn_eq (x := x) ?_⟩
    rw [splitOn_spaced _ _ hne h, splitOn_between, List.splitOn_intercalate x hfirst (List.cons_ne_nil _ _),
      List.splitOn_intercalate x hlast (by simp), ← hps]
    simp

/-! ### Runs of separators -/

theorem splitOn_replicate_append (n : ℕ) (t : List α) :
    (List.replicate n x ++ t).splitOn x = List.replicate n [] ++ t.splitOn x := by
  induction n with
  | zero => rfl
  | succ n ih =>
    have hfirst : (x :: (List.replicate n x ++ t)).splitOn x = List.splitOn x [] ++ (List.replicate n x ++ t).splitOn x :=
      List.splitOn_append_cons_self [] _
    rw [List.replicate_succ, List.cons_append, hfirst, ih, List.splitOn_nil]
    rfl

/-- A run of separators has empty words in it. -/
theorem splitOn_run (a b : List α) (n : ℕ) : (a ++ List.replicate (n + 1) x ++ b).splitOn x =
    a.splitOn x ++ (List.replicate n [] ++ b.splitOn x) := by
  rw [List.replicate_succ, List.append_assoc, List.cons_append, List.splitOn_append_cons_self, splitOn_replicate_append]

end

section

variable {β : Type*} {phrase l r : List (List β)}

/-- A phrase that stands partly before and partly behind. -/
def Across (phrase l r : List (List β)) : Prop := ∃ p s, p ≠ [] ∧ s ≠ [] ∧ phrase = p ++ s ∧ p <:+ l ∧ s <+: r

theorem infix_append_iff_across : phrase <:+: l ++ r ↔ phrase <:+: l ∨ phrase <:+: r ∨ Across phrase l r :=
  List.infix_append_iff_ne_nil

/-- No part of a phrase begins with an empty word. -/
theorem not_prefix_of_nil {s : List (List β)} (hs : s ≠ []) (h : [] ∉ s) (n : ℕ) :
    ¬s <+: List.replicate (n + 1) [] ++ r := by
  rintro ⟨t, ht⟩
  obtain ⟨w, ws, rfl⟩ := List.exists_cons_of_ne_nil hs
  rw [List.replicate_succ, List.cons_append, List.cons_append, List.cons.injEq] at ht
  exact h (ht.1 ▸ List.mem_cons_self)

/-- Behind empty words a phrase stands in what is behind them. -/
theorem infix_replicate_append_iff (hne : phrase ≠ []) (h : [] ∉ phrase) (n : ℕ) :
    phrase <:+: List.replicate n [] ++ r ↔ phrase <:+: r := by
  induction n with
  | zero => rfl
  | succ n ih =>
    rw [List.replicate_succ, List.cons_append, List.infix_cons_iff, ih]
    exact or_iff_right (not_prefix_of_nil hne h n)

/-- A phrase that the run does not stand in is on one side of it: no phrase reaches over empty words. -/
theorem infix_apart_iff (hne : phrase ≠ []) (h : [] ∉ phrase) {n : ℕ} (hn : n ≠ 0 ∨ ¬Across phrase l r) :
    phrase <:+: l ++ (List.replicate n [] ++ r) ↔ phrase <:+: l ∨ phrase <:+: r := by
  have hacross : ¬Across phrase l (List.replicate n [] ++ r) := by
    rcases Nat.eq_zero_or_eq_succ_pred n with rfl | hsucc
    · exact hn.resolve_left fun h => h rfl
    · rintro ⟨p, s, -, hs, rfl, -, hprefix⟩
      rw [hsucc] at hprefix
      exact not_prefix_of_nil hs (fun hmem => h (List.mem_append_right p hmem)) _ hprefix
  rw [infix_append_iff_across, infix_replicate_append_iff hne h]
  simp only [hacross, or_false]

/-- **How long a run of separators is does not matter to a phrase**, unless the run stands inside it. -/
theorem infix_run_iff (hne : phrase ≠ []) (h : [] ∉ phrase) {m n : ℕ} (hrun : (m = 0 ↔ n = 0) ∨ ¬Across phrase l r) :
    phrase <:+: l ++ (List.replicate m [] ++ r) ↔ phrase <:+: l ++ (List.replicate n [] ++ r) := by
  rcases hrun with hrun | hacross
  · rcases Nat.eq_zero_or_pos m with hm | hm
    · rw [hm, hrun.1 hm]
    · have hn : n ≠ 0 := fun hn => hm.ne' (hrun.2 hn)
      rw [infix_apart_iff hne h (.inl hm.ne'), infix_apart_iff hne h (.inl hn)]
  · rw [infix_apart_iff hne h (.inr hacross), infix_apart_iff hne h (.inr hacross)]

end

end Words
