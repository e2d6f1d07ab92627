import Latiq.Library.SqlLex

/-!
# Rewriting a text between and inside its lexemes

A lexeme is what the lexer takes because of its own characters and of a few
characters behind it. So a text may be changed behind a lexeme, as long as those
few characters still look alike, and the lexeme stays what it is.

* `Placed` — items that lex as themselves where they stand.
* `Alike` — two texts that look alike to a lexeme in front of them.

## What is proved

* `lexes_iff_placed` — a text lexes to items exactly when it is these items written
  out, and each is taken where it stands.
* `Takes.alike` — a lexeme is taken in front of every text that looks alike.
* `Placed.splice` — items stay where they are when what is behind them is exchanged
  for something that looks alike.
-/

namespace SqlLex

/-! ### Items where they stand -/

/-- Each item is what the lexer takes off the items from it on. -/
def Placed : List Item → Prop
  | [] => True
  | i :: is => Takes (i.render ++ renderAll is) i (renderAll is) ∧ Placed is

theorem lexes_iff_placed {t : Text} {is : List Item} : Lexes t is ↔ t = renderAll is ∧ Placed is := by
  constructor
  · intro h
    induction h with
    | nil => exact ⟨rfl, trivial⟩
    | cons hi _ ih =>
      obtain ⟨rfl, hp⟩ := ih
      have hr := hi.render
      subst hr
      exact ⟨rfl, hi, hp⟩
  · rintro ⟨rfl, hp⟩
    induction is with
    | nil => exact .nil
    | cons i is ih => exact .cons hp.1 (ih hp.2)

theorem Placed.lexes {is : List Item} (h : Placed is) : Lexes (renderAll is) is := lexes_iff_placed.2 ⟨rfl, h⟩

theorem Placed.of_append {is js : List Item} (h : Placed (is ++ js)) : Placed js := by
  induction is with
  | nil => exact h
  | cons i is ih => exact ih h.2

/-! ### Texts that look alike -/

/-- The lexer does not look past these characters for the lexeme in front of them. -/
def isBarrier (c : Char) : Bool := !isTagChar c && c != '+' && c != '-'

/-- Whether whitespace or a comment starts here. -/
def startsGap : Text → Bool
  | [] => false
  | c :: r => isSpace c || (c == '-' && startsWith (· == '-') r) || (c == '/' && startsWith (· == '*') r)

/-- The characters a new gap may start with. -/
def opensGap (c : Char) : Bool := isSpace c || c == '/'

/-- `Alike p r r'`: a lexeme that is taken in front of `r` is taken in front of `r'`. `p` says whether the
character in front may be of the tag of a dollar quote. -/
inductive Alike : Bool → Text → Text → Prop where
  | nil {p : Bool} : Alike p [] []
  /-- The same character, and then texts that look alike. -/
  | cons {p : Bool} (c : Char) {r r' : Text} : Alike (isTagChar c) r r' → Alike p (c :: r) (c :: r')
  /-- Anything behind a barrier. -/
  | stop {p : Bool} {c : Char} {z z' : Text} : isBarrier c → Alike p (c :: z) (c :: z')
  /-- Anything behind a digit that no tag goes on with. -/
  | digit {d : Char} {z z' : Text} : d.isDigit → Alike false (d :: z) (d :: z')
  /-- Another line comment. -/
  | dashes {p : Bool} {z z' : Text} : Alike p ('-' :: '-' :: z) ('-' :: '-' :: z')
  /-- Another gap. -/
  | gap {p : Bool} {r : Text} {c : Char} {z' : Text} : startsGap r → opensGap c → Alike p r (c :: z')

theorem Alike.refl (p : Bool) (t : Text) : Alike p t t := by
  induction t generalizing p with
  | nil => exact .nil
  | cons c t ih => exact .cons c (ih _)

/-- The same characters in front. -/
theorem Alike.append {p : Bool} {r r' : Text} (u : Text) (h : Alike (u.foldl (fun _ c => isTagChar c) p) r r') :
    Alike p (u ++ r) (u ++ r') := by
  induction u generalizing p with
  | nil => exact h
  | cons c u ih => exact .cons c (ih h)

/-- What a class of characters must keep apart, so that texts that look alike start alike for it. -/
theorem opensGap_ne {c : Char} (h : opensGap c) : isWordChar c = false ∧ c ≠ '\'' ∧ c ≠ '"' ∧ c ≠ '-' ∧ c ≠ '*' ∧
    c ≠ '.' ∧ c ≠ '$' ∧ c ≠ '+' := by
  simp only [opensGap, isSpace, Bool.or_eq_true, beq_iff_eq] at h
  rcases h with (((((rfl | rfl) | rfl) | rfl) | rfl) | rfl) | rfl <;> decide

theorem isDigit_isTagChar {c : Char} (h : c.isDigit) : isTagChar c = true := by simp [isTagChar, h]

theorem isTagChar_isWordChar {c : Char} (h : isTagChar c) : isWordChar c = true := by
  simp only [isTagChar, Bool.or_eq_true] at h
  simp [isWordChar, h]

theorem startsGap_head {r : Text} (h : startsGap r) : ∃ c z, r = c :: z ∧ isWordChar c = false ∧ c ≠ '$' ∧ c ≠ '+' ∧
    c ≠ '.' ∧ (c = '-' → startsWith (· == '-') z) := by
  cases r with
  | nil => cases h
  | cons c z =>
    refine ⟨c, z, rfl, ?_⟩
    simp only [startsGap, Bool.or_eq_true, Bool.and_eq_true, beq_iff_eq] at h
    rcases h with (h | ⟨rfl, h⟩) | ⟨rfl, h⟩
    · have hc := opensGap_ne (c := c) (by simp [opensGap, h])
      exact ⟨hc.1, hc.2.2.2.2.2.2.1, hc.2.2.2.2.2.2.2, hc.2.2.2.2.2.1, fun he => absurd he hc.2.2.2.1⟩
    · exact ⟨by decide, by decide, by decide, by decide, fun _ => h⟩
    · exact ⟨by decide, by decide, by decide, by decide, fun he => absurd he (by decide)⟩

/-- A class without the characters that open a gap: it does not start `r'` if it does not start `r`. -/
theorem Alike.head {p : Bool} {r r' : Text} (h : Alike p r r') {f : Char → Bool} (hf : ∀ c, opensGap c → f c = false)
    (hr : startsWith f r = false) : startsWith f r' = false := by
  cases h with
  | nil => exact hr
  | cons c h => exact hr
  | stop hc => exact hr
  | digit hd => exact hr
  | dashes => exact hr
  | gap hg hc => exact hf _ hc

/-! ### What a number looks at -/

theorem isWordChar_of_isDigit {c : Char} (h : c.isDigit) : isWordChar c = true := isTagChar_isWordChar (isDigit_isTagChar h)

theorem isDigit_of_not_isWordChar {c : Char} (h : isWordChar c = false) : c.isDigit = false := by
  cases hd : c.isDigit with
  | true => exact absurd (isWordChar_of_isDigit hd) (by simp [h])
  | false => rfl

theorem Alike.startsDigit {p : Bool} {r r' : Text} (h : Alike p r r') :
    startsWith Char.isDigit r' = startsWith Char.isDigit r := by
  cases h with
  | gap hg hc =>
    obtain ⟨b, y, rfl, hb, -⟩ := startsGap_head hg
    rw [startsWith, startsWith, isDigit_of_not_isWordChar hb, isDigit_of_not_isWordChar (opensGap_ne hc).1]
  | _ => rfl

/-- Whether a run of digits goes on here. -/
def goesOn : Text → Bool
  | [] => false
  | c :: r => c.isDigit || (c == '_' && startsWith Char.isDigit r)

theorem goesOn_of_ne {c : Char} (hd : c.isDigit = false) (hu : c ≠ '_') (r : Text) : goesOn (c :: r) = false := by
  simp [goesOn, hd, hu]

theorem goesOn_of_not_isWordChar {c : Char} (h : isWordChar c = false) (r : Text) : goesOn (c :: r) = false := by
  apply goesOn_of_ne (isDigit_of_not_isWordChar h)
  rintro rfl
  exact absurd h (by decide)

theorem isBarrier_iff {c : Char} : isBarrier c ↔ isTagChar c = false ∧ c ≠ '+' ∧ c ≠ '-' := by
  simp [isBarrier, and_assoc]

theorem ne_of_not_isTagChar {c : Char} (h : isTagChar c = false) : c.isDigit = false ∧ c ≠ '_' ∧ c ≠ 'e' ∧ c ≠ 'E' := by
  refine ⟨?_, ?_, ?_, ?_⟩
  · cases hd : c.isDigit with
    | true => exact absurd (isDigit_isTagChar hd) (by simp [h])
    | false => rfl
  · rintro rfl
    exact absurd h (by decide)
  · rintro rfl
    exact absurd h (by decide)
  · rintro rfl
    exact absurd h (by decide)

theorem Alike.goesOn_eq {p : Bool} {r r' : Text} (h : Alike p r r') : goesOn r' = goesOn r := by
  cases h with
  | nil => rfl
  | cons c h => rw [goesOn, goesOn, h.startsDigit]
  | stop hc =>
    have hne := ne_of_not_isTagChar (isBarrier_iff.1 hc).1
    rw [goesOn_of_ne hne.1 hne.2.1, goesOn_of_ne hne.1 hne.2.1]
  | digit hd => rw [goesOn, goesOn, hd, Bool.true_or, Bool.true_or]
  | dashes => rfl
  | gap hg hc =>
    obtain ⟨b, y, rfl, hb, -⟩ := startsGap_head hg
    rw [goesOn_of_not_isWordChar hb, goesOn_of_not_isWordChar (opensGap_ne hc).1]

theorem scanDigits_of_goesOn {c : Char} {r : Text} (h : goesOn (c :: r)) :
    scanDigits (c :: r) = (c :: (scanDigits r).1, (scanDigits r).2) := by
  rw [scanDigits, if_pos]
  simpa [goesOn] using h

theorem scanDigits_stop {r : Text} : scanDigits r = ([], r) ↔ goesOn r = false := by
  cases r with
  | nil => exact ⟨fun _ => rfl, fun _ => rfl⟩
  | cons c r =>
    by_cases h : goesOn (c :: r) = true
    · rw [scanDigits_of_goesOn h, h]
      simp
    · rw [scanDigits, if_neg (by simpa [goesOn] using h)]
      simpa using h

theorem scanDigits_cons {c : Char} {d r y : Text} : scanDigits (c :: r) = (c :: d, y) ↔
    goesOn (c :: r) ∧ scanDigits r = (d, y) := by
  by_cases h : goesOn (c :: r) = true
  · rw [scanDigits_of_goesOn h]
    simp [h, Prod.ext_iff]
  · rw [scanDigits_stop.2 (by simpa using h)]
    simp [h]

/-- A run of digits is the same in front of what looks alike. -/
theorem Alike.digits {p : Bool} {d y y' : Text} (h : Alike p y y') (hs : scanDigits (d ++ y) = (d, y)) :
    scanDigits (d ++ y') = (d, y') := by
  induction d with
  | nil =>
    rw [List.nil_append] at hs ⊢
    rw [scanDigits_stop] at hs ⊢
    rw [h.goesOn_eq, hs]
  | cons c d ih =>
    rw [List.cons_append, scanDigits_cons] at hs ⊢
    refine ⟨?_, ih hs.2⟩
    have hd : startsWith Char.isDigit (d ++ y') = startsWith Char.isDigit (d ++ y) := by
      cases d with
      | nil => exact h.startsDigit
      | cons => rfl
    rw [goesOn, hd]
    exact hs.1

theorem scanDigits_not_digit (t : Text) : startsWith Char.isDigit (scanDigits t).2 = false := by
  induction t with
  | nil => rfl
  | cons c r ih =>
    by_cases h : goesOn (c :: r) = true
    · rw [scanDigits_of_goesOn h]
      exact ih
    · have hstop : goesOn (c :: r) = false := by simpa using h
      rw [scanDigits_stop.2 hstop]
      rw [goesOn, Bool.or_eq_false_iff] at hstop
      exact hstop.1

/-- What may follow the `e` of an exponent: a digit, or a sign and a digit. -/
def startsSigned : Text → Bool
  | [] => false
  | s :: r => s.isDigit || ((s == '+' || s == '-') && startsWith Char.isDigit r)

theorem startsSigned_of_ne {c : Char} (hd : c.isDigit = false) (hp : c ≠ '+') {r : Text}
    (hm : c = '-' → startsWith Char.isDigit r = false) : startsSigned (c :: r) = false := by
  by_cases hc : c = '-'
  · rw [startsSigned, hd, hm hc, Bool.and_false, Bool.false_or]
  · simp [startsSigned, hd, hp, hc]

theorem Alike.startsSigned_eq {p : Bool} {r r' : Text} (h : Alike p r r') : startsSigned r' = startsSigned r := by
  cases h with
  | nil => rfl
  | cons s h => rw [startsSigned, startsSigned, h.startsDigit]
  | stop hc =>
    obtain ⟨ht, hp, hm⟩ := isBarrier_iff.1 hc
    have hd := (ne_of_not_isTagChar ht).1
    rw [startsSigned_of_ne hd hp fun he => absurd he hm, startsSigned_of_ne hd hp fun he => absurd he hm]
  | digit hd => rw [startsSigned, startsSigned, hd, Bool.true_or, Bool.true_or]
  | dashes => rfl
  | gap hg hc =>
    obtain ⟨b, y, rfl, hb, -, hplus, -, hdash⟩ := startsGap_head hg
    obtain ⟨hcw, -, -, hcm, -, -, -, hcp⟩ := opensGap_ne hc
    have hy : b = '-' → startsWith Char.isDigit y = false := by
      intro hbm
      obtain ⟨x, y, rfl, hx⟩ := exists_of_startsWith (hdash hbm)
      simp only [beq_iff_eq] at hx
      subst hx
      rfl
    rw [startsSigned_of_ne (isDigit_of_not_isWordChar hb) hplus hy,
      startsSigned_of_ne (isDigit_of_not_isWordChar hcw) hcp fun he => absurd he hcm]

/-- Whether an exponent starts here. -/
def startsExponent : Text → Bool
  | [] => false
  | e :: r => (e == 'e' || e == 'E') && startsSigned r

theorem startsExponent_of_ne {c : Char} (h : c ≠ 'e' ∧ c ≠ 'E') (r : Text) : startsExponent (c :: r) = false := by
  simp [startsExponent, h.1, h.2]

theorem startsExponent_of_not_isWordChar {c : Char} (h : isWordChar c = false) (r : Text) :
    startsExponent (c :: r) = false := by
  apply startsExponent_of_ne
  constructor
  · rintro rfl
    exact absurd h (by decide)
  · rintro rfl
    exact absurd h (by decide)

theorem Alike.startsExponent_eq {p : Bool} {r r' : Text} (h : Alike p r r') : startsExponent r' = startsExponent r := by
  cases h with
  | nil => rfl
  | cons e h => rw [startsExponent, startsExponent, h.startsSigned_eq]
  | stop hc =>
    have he := (ne_of_not_isTagChar (isBarrier_iff.1 hc).1).2.2
    rw [startsExponent_of_ne he, startsExponent_of_ne he]
  | @digit d z z' hd =>
    have he : d ≠ 'e' ∧ d ≠ 'E' := by
      constructor
      · rintro rfl
        exact absurd hd (by decide)
      · rintro rfl
        exact absurd hd (by decide)
    rw [startsExponent_of_ne he, startsExponent_of_ne he]
  | dashes => rfl
  | gap hg hc =>
    obtain ⟨b, y, rfl, hb, -⟩ := startsGap_head hg
    rw [startsExponent_of_not_isWordChar hb, startsExponent_of_not_isWordChar (opensGap_ne hc).1]

theorem scanExponent_stop {r : Text} : scanExponent r = ([], r) ↔ startsExponent r = false := by
  match r with
  | [] => exact ⟨fun _ => rfl, fun _ => rfl⟩
  | [e] => simp [scanExponent, startsExponent, startsSigned]
  | e :: s :: r =>
    rw [scanExponent]
    split_ifs with h₁ h₂
    · have hexp : startsExponent (e :: s :: r) = true := by
        rw [startsExponent, startsSigned, h₁.2, Bool.true_or, Bool.and_true]
        simpa using h₁.1
      simp [hexp]
    · have hexp : startsExponent (e :: s :: r) = true := by
        rw [startsExponent, startsSigned, h₂.2.2, Bool.and_true, Bool.and_eq_true, Bool.or_eq_true, Bool.or_eq_true]
        exact ⟨by simpa using h₂.1, .inr (by simpa using h₂.2.1)⟩
      simp [hexp]
    · simp only [true_iff]
      by_contra hexp
      simp only [startsExponent, startsSigned, Bool.not_eq_false, Bool.and_eq_true, Bool.or_eq_true, beq_iff_eq] at hexp
      obtain ⟨he, hs | ⟨hs, hd⟩⟩ := hexp
      · exact h₁ ⟨he, hs⟩
      · exact h₂ ⟨he, hs, hd⟩

/-- A fraction is the same in front of what looks alike. -/
theorem Alike.fraction {p : Bool} {f y y' : Text} (h : Alike p y y') (hs : scanFraction (f ++ y) = (f, y)) :
    scanFraction (f ++ y') = (f, y') := by
  cases f with
  | nil =>
    rw [List.nil_append] at hs ⊢
    cases y' with
    | nil => rfl
    | cons c z =>
      rw [scanFraction, if_neg]
      rintro rfl
      have hdot : startsWith (· == '.') y = false := by
        cases y with
        | nil => rfl
        | cons b y =>
          rw [startsWith, beq_eq_false_iff_ne]
          rintro rfl
          rw [scanFraction, if_pos rfl] at hs
          split at hs
          · cases hs
          · cases hs
      have hdot' := h.head (fun c hc => by simpa using (opensGap_ne hc).2.2.2.2.2.1) hdot
      cases hdot'
  | cons c f =>
    rw [List.cons_append, scanFraction] at hs ⊢
    split at hs
    · rename_i hc
      subst hc
      rw [if_pos rfl]
      have hd : startsWith Char.isDigit (f ++ y') = startsWith Char.isDigit (f ++ y) := by
        cases f with
        | nil => exact h.startsDigit
        | cons => rfl
      rw [hd]
      split at hs
      · rename_i hdig
        simp only [Prod.mk.injEq, List.cons.injEq, true_and] at hs
        have hdigits := h.digits (d := f) (Prod.ext hs.1 hs.2)
        rw [if_pos hdig, hdigits]
      · rename_i hdig
        simp only [Prod.mk.injEq, List.cons.injEq, true_and] at hs
        obtain ⟨rfl, -⟩ := hs
        rw [if_neg hdig]
        rfl
    · cases hs

/-- An exponent is the same in front of what looks alike. -/
theorem Alike.exponent {p : Bool} {e y y' : Text} (h : Alike p y y') (hs : scanExponent (e ++ y) = (e, y)) :
    scanExponent (e ++ y') = (e, y') := by
  match e with
  | [] =>
    rw [List.nil_append] at hs ⊢
    rw [scanExponent_stop] at hs ⊢
    rw [h.startsExponent_eq, hs]
  | [c] =>
    exfalso
    match y with
    | [] => cases hs
    | s :: r =>
      rw [List.singleton_append, scanExponent] at hs
      split_ifs at hs with h₁ h₂
      · simp only [Prod.mk.injEq, List.cons.injEq, true_and] at hs
        rw [scanDigits_of_goesOn (by simp [goesOn, h₁.2])] at hs
        cases hs.1
      · simp at hs
      · simp at hs
  | c :: s :: e =>
    rw [List.cons_append, List.cons_append, scanExponent] at hs ⊢
    have hd : startsWith Char.isDigit (e ++ y') = startsWith Char.isDigit (e ++ y) := by
      cases e with
      | nil => exact h.startsDigit
      | cons => rfl
    rw [hd]
    split_ifs at hs ⊢ with h₁ h₂
    · simp only [Prod.mk.injEq, List.cons.injEq, true_and] at hs
      have hdigits := h.digits (d := s :: e) (Prod.ext hs.1 hs.2)
      rw [List.cons_append] at hdigits
      rw [hdigits]
    · simp only [Prod.mk.injEq, List.cons.injEq, true_and] at hs
      rw [h.digits (d := e) (Prod.ext hs.1 hs.2)]
    · simp at hs

/-- A number, by its digits, its fraction and its exponent. -/
theorem scanNumber_iff {n r : Text} : scanNumber (n ++ r) = (n, r) ↔
    ∃ i f e, n = i ++ f ++ e ∧ scanDigits (i ++ (f ++ (e ++ r))) = (i, f ++ (e ++ r)) ∧
      scanFraction (f ++ (e ++ r)) = (f, e ++ r) ∧ scanExponent (e ++ r) = (e, r) := by
  constructor
  · intro h
    have hd := scanDigits_eq (n ++ r)
    have hf := scanFraction_eq (scanDigits (n ++ r)).2
    have he := scanExponent_eq (scanFraction (scanDigits (n ++ r)).2).2
    simp only [scanNumber, Prod.mk.injEq] at h
    obtain ⟨hn, hr⟩ := h
    rw [hr] at he
    refine ⟨_, _, _, hn.symm, ?_, ?_, ?_⟩
    · rw [← he, ← hf, ← hd]
    · rw [← he, ← hf]
    · rw [← he]
      exact Prod.ext rfl hr
  · rintro ⟨i, f, e, rfl, hi, hf, he⟩
    rw [List.append_assoc, List.append_assoc, scanNumber, hi]
    simp only [hf, he, List.append_assoc]

/-- A number is the same in front of what looks alike. -/
theorem Alike.number {p : Bool} {n r r' : Text} (h : ∀ p, Alike p r r') (hs : scanNumber (n ++ r) = (n, r)) :
    scanNumber (n ++ r') = (n, r') := by
  obtain ⟨i, f, e, rfl, hi, hf, he⟩ := scanNumber_iff.1 hs
  have ha (u : Text) : Alike p (u ++ r) (u ++ r') := Alike.append u (h _)
  refine scanNumber_iff.2 ⟨i, f, e, rfl, ?_, ?_, (ha []).exponent he⟩
  · have hi' := (ha (f ++ e)).digits (d := i) (by simpa using hi)
    simpa using hi'
  · exact (ha e).fraction hf

theorem scanFraction_not_digit {t : Text} (h : startsWith Char.isDigit t = false) :
    startsWith Char.isDigit (scanFraction t).2 = false := by
  cases t with
  | nil => rfl
  | cons c r =>
    rw [scanFraction]
    split_ifs with hc hd
    · exact scanDigits_not_digit r
    · simpa using hd
    · exact h

theorem scanExponent_not_digit {t : Text} (h : startsWith Char.isDigit t = false) :
    startsWith Char.isDigit (scanExponent t).2 = false := by
  match t with
  | [] => rfl
  | [e] => exact h
  | e :: s :: r =>
    rw [scanExponent]
    split_ifs
    · exact scanDigits_not_digit (s :: r)
    · exact scanDigits_not_digit r
    · exact h

/-- A number takes every digit there is. -/
theorem scanNumber_not_digit (t : Text) : startsWith Char.isDigit (scanNumber t).2 = false :=
  scanExponent_not_digit (scanFraction_not_digit (scanDigits_not_digit t))

/-! ### What is closed by its own characters -/

theorem scanQuote_replace {q : Char} {t b r r' : Text} (h : scanQuote q t = some (b, r))
    (hr : startsWith (· == q) r' = false) : scanQuote q (b ++ q :: r') = some (b, r') := by
  have hnil : scanQuote q (q :: r') = some ([], r') := by
    cases r' with
    | nil => simp [scanQuote]
    | cons d z =>
      have hd : d ≠ q := by simpa [startsWith] using hr
      simp [scanQuote, hd]
  induction t using scanQuote.induct q generalizing b r with
  | case1 => simp [scanQuote] at h
  | case2 =>
    simp only [scanQuote, if_pos, Option.some.injEq, Prod.mk.injEq] at h
    obtain ⟨rfl, rfl⟩ := h
    exact hnil
  | case3 c hc => simp [scanQuote, hc] at h
  | case4 z ih =>
    simp only [scanQuote, if_pos, Option.map_eq_some_iff, Prod.mk.injEq, Prod.exists] at h
    obtain ⟨b', t', h', rfl, rfl⟩ := h
    simp [scanQuote, ih h']
  | case5 d z hd =>
    simp only [scanQuote, if_pos, if_neg hd, Option.some.injEq, Prod.mk.injEq] at h
    obtain ⟨rfl, rfl⟩ := h
    exact hnil
  | case6 c d z hc ih =>
    simp only [scanQuote, if_neg hc, Option.map_eq_some_iff, Prod.mk.injEq, Prod.exists] at h
    obtain ⟨b', t', h', rfl, rfl⟩ := h
    have hb := ih h'
    cases hx : b' ++ q :: r' with
    | nil => simp at hx
    | cons x y =>
      rw [hx] at hb
      rw [List.cons_append, hx]
      simp [scanQuote, hc, hb]

/-- No quote stands behind the quote that closes a string. -/
theorem scanQuote_not_quote {q : Char} {t b r : Text} (h : scanQuote q t = some (b, r)) :
    startsWith (· == q) r = false := by
  induction t using scanQuote.induct q generalizing b r with
  | case1 => simp [scanQuote] at h
  | case2 =>
    simp only [scanQuote, if_pos, Option.some.injEq, Prod.mk.injEq] at h
    obtain ⟨rfl, rfl⟩ := h
    rfl
  | case3 c hc => simp [scanQuote, hc] at h
  | case4 z ih =>
    simp only [scanQuote, if_pos, Option.map_eq_some_iff, Prod.mk.injEq, Prod.exists] at h
    obtain ⟨b', t', h', rfl, rfl⟩ := h
    exact ih h'
  | case5 d z hd =>
    simp only [scanQuote, if_pos, if_neg hd, Option.some.injEq, Prod.mk.injEq] at h
    obtain ⟨rfl, rfl⟩ := h
    exact beq_eq_false_iff_ne.2 hd
  | case6 c d z hc ih =>
    simp only [scanQuote, if_neg hc, Option.map_eq_some_iff, Prod.mk.injEq, Prod.exists] at h
    obtain ⟨b', t', h', rfl, rfl⟩ := h
    exact ih h'

theorem scanEscape_not_quote {t b r : Text} (h : scanEscape t = some (b, r)) : startsWith (· == '\'') r = false := by
  induction t using scanEscape.induct generalizing b r with
  | case1 => simp [scanEscape] at h
  | case2 =>
    simp only [scanEscape, if_pos, Option.some.injEq, Prod.mk.injEq] at h
    obtain ⟨rfl, rfl⟩ := h
    rfl
  | case3 c hc => simp [scanEscape, hc] at h
  | case4 d z ih =>
    simp only [scanEscape, if_pos, Option.map_eq_some_iff, Prod.mk.injEq, Prod.exists] at h
    obtain ⟨b', t', h', rfl, rfl⟩ := h
    exact ih h'
  | case5 z hc ih =>
    simp only [scanEscape, if_neg hc, if_pos, Option.map_eq_some_iff, Prod.mk.injEq, Prod.exists] at h
    obtain ⟨b', t', h', rfl, rfl⟩ := h
    exact ih h'
  | case6 d z hc hd =>
    simp only [scanEscape, if_neg hc, if_pos, if_neg hd, Option.some.injEq, Prod.mk.injEq] at h
    obtain ⟨rfl, rfl⟩ := h
    exact beq_eq_false_iff_ne.2 hc
  | case7 c d z hc hc' ih =>
    simp only [scanEscape, if_neg hc, if_neg hc', Option.map_eq_some_iff, Prod.mk.injEq, Prod.exists] at h
    obtain ⟨b', t', h', rfl, rfl⟩ := h
    exact ih h'

theorem scanEscape_replace {t b r r' : Text} (h : scanEscape t = some (b, r))
    (hr : startsWith (· == '\'') r' = false) : scanEscape (b ++ '\'' :: r') = some (b, r') := by
  have hnil : scanEscape ('\'' :: r') = some ([], r') := by
    cases r' with
    | nil => simp [scanEscape]
    | cons d z =>
      have hd : d ≠ '\'' := by simpa [startsWith] using hr
      simp [scanEscape, hd]
  induction t using scanEscape.induct generalizing b r with
  | case1 => simp [scanEscape] at h
  | case2 =>
    simp only [scanEscape, if_pos, Option.some.injEq, Prod.mk.injEq] at h
    obtain ⟨rfl, rfl⟩ := h
    exact hnil
  | case3 c hc => simp [scanEscape, hc] at h
  | case4 d z ih =>
    simp only [scanEscape, if_pos, Option.map_eq_some_iff, Prod.mk.injEq, Prod.exists] at h
    obtain ⟨b', t', h', rfl, rfl⟩ := h
    simp [scanEscape, ih h']
  | case5 z hc ih =>
    simp only [scanEscape, if_neg hc, if_pos, Option.map_eq_some_iff, Prod.mk.injEq, Prod.exists] at h
    obtain ⟨b', t', h', rfl, rfl⟩ := h
    simp [scanEscape, ih h']
  | case6 d z hc hd =>
    simp only [scanEscape, if_neg hc, if_pos, if_neg hd, Option.some.injEq, Prod.mk.injEq] at h
    obtain ⟨rfl, rfl⟩ := h
    exact hnil
  | case7 c d z hc hc' ih =>
    simp only [scanEscape, if_neg hc, if_neg hc', Option.map_eq_some_iff, Prod.mk.injEq, Prod.exists] at h
    obtain ⟨b', t', h', rfl, rfl⟩ := h
    have hb := ih h'
    cases hx : b' ++ '\'' :: r' with
    | nil => simp at hx
    | cons x y =>
      rw [hx] at hb
      rw [List.cons_append, hx]
      simp [scanEscape, hc, hc', hb]

theorem scanBlock_replace {n : ℕ} {t b r r' : Text} (h : scanBlock n t = some (b, r)) :
    scanBlock n (b ++ '*' :: '/' :: r') = some (b, r') := by
  induction n, t using scanBlock.induct generalizing b r with
  | case1 | case2 => simp [scanBlock] at h
  | case3 c d z hc =>
    simp only [scanBlock, if_pos hc, Option.some.injEq, Prod.mk.injEq] at h
    obtain ⟨rfl, rfl⟩ := h
    simp [scanBlock]
  | case4 c d z hc n ih =>
    simp only [scanBlock, if_pos hc, Option.map_eq_some_iff, Prod.mk.injEq, Prod.exists] at h
    obtain ⟨b', t', h', rfl, rfl⟩ := h
    simp [scanBlock, hc, ih h']
  | case5 n c d z hc hc' ih =>
    simp only [scanBlock, if_neg hc, if_pos hc', Option.map_eq_some_iff, Prod.mk.injEq, Prod.exists] at h
    obtain ⟨b', t', h', rfl, rfl⟩ := h
    simp [scanBlock, hc', ih h']
  | case6 n c d z hc hc' ih =>
    simp only [scanBlock, if_neg hc, if_neg hc', Option.map_eq_some_iff, Prod.mk.injEq, Prod.exists] at h
    obtain ⟨b', t', h', rfl, rfl⟩ := h
    have hb := ih h'
    -- The second character is the head of the body, or the star that closes it.
    have hd : ∃ y, b' ++ '*' :: '/' :: r' = d :: y := by
      have ht := scanBlock_eq h'
      cases b' with
      | nil =>
        rw [List.nil_append] at ht
        cases ht
        exact ⟨_, rfl⟩
      | cons x b' =>
        rw [List.cons_append] at ht
        cases ht
        exact ⟨_, rfl⟩
    obtain ⟨y, hy⟩ := hd
    rw [hy] at hb
    rw [List.cons_append, hy]
    simp [scanBlock, hc, hc', hb]

theorem dropPrefix?_isSome {p t : Text} : (dropPrefix? p t).isSome ↔ p <+: t := by
  constructor
  · intro h
    obtain ⟨r, hr⟩ := Option.isSome_iff_exists.1 h
    exact ⟨r, (dropPrefix?_eq.1 hr).symm⟩
  · rintro ⟨r, rfl⟩
    rw [dropPrefix?_eq.2 rfl]
    rfl

theorem dropPrefix?_none {p t : Text} : dropPrefix? p t = none ↔ ¬p <+: t := by
  rw [← dropPrefix?_isSome, Option.not_isSome_iff_eq_none]

theorem scanUntil_replace {close t b r r' : Text} (h : scanUntil close t = some (b, r)) :
    scanUntil close (b ++ (close ++ r')) = some (b, r') := by
  induction t generalizing b r with
  | nil =>
    simp only [scanUntil, Option.map_eq_some_iff, Prod.mk.injEq] at h
    obtain ⟨t', h', rfl, rfl⟩ := h
    have hclose : close = [] := by
      have ht := dropPrefix?_eq.1 h'
      exact (List.append_eq_nil_iff.1 ht.symm).1
    subst hclose
    cases r' with
    | nil => rfl
    | cons => rfl
  | cons c t ih =>
    rw [scanUntil] at h
    split at h
    · simp only [Option.some.injEq, Prod.mk.injEq] at h
      obtain ⟨rfl, rfl⟩ := h
      rw [List.nil_append]
      cases hx : close ++ r' with
      | nil =>
        obtain ⟨rfl, rfl⟩ := List.append_eq_nil_iff.1 hx
        rfl
      | cons x y => rw [scanUntil, ← hx, dropPrefix?_eq.2 rfl]
    · rename_i hnone
      simp only [Option.map_eq_some_iff, Prod.mk.injEq, Prod.exists] at h
      obtain ⟨b', t', h', rfl, rfl⟩ := h
      have hb := ih h'
      have ht := scanUntil_eq h'
      have hnone' : dropPrefix? close (c :: (b' ++ (close ++ r'))) = none := by
        rw [dropPrefix?_none] at hnone ⊢
        intro hpre
        apply hnone
        -- The closing tag fits into what both texts share.
        have hshare : close <+: c :: (b' ++ close) := by
          rw [← List.append_assoc] at hpre
          exact List.prefix_of_prefix_length_le hpre (List.prefix_append (c :: (b' ++ close)) r')
            (by simp only [List.length_cons, List.length_append]; omega)
        rw [ht]
        exact hshare.trans (List.prefix_append (c :: (b' ++ close)) t')
      rw [List.cons_append, scanUntil, hnone', hb]
      rfl

theorem scanTag_replace {t tag r : Text} (h : scanTag t = some (tag, r)) (r' : Text) :
    scanTag (tag ++ '$' :: r') = some (tag, r') := by
  unfold scanTag at h
  split at h
  · split at h
    · cases h
    · rename_i hd
      simp only [Option.some.injEq, Prod.mk.injEq] at h
      obtain ⟨rfl, -⟩ := h
      have hall : ∀ c ∈ t.takeWhile isTagChar, isTagChar c = true := fun c hc => List.mem_takeWhile_imp hc
      have hdollar : isTagChar '$' = false := by decide
      rw [scanTag, List.dropWhile_append_of_pos hall, List.takeWhile_append_of_pos hall,
        List.dropWhile_cons_of_neg (by simp [hdollar]), List.takeWhile_cons_of_neg (by simp [hdollar]), List.append_nil]
      exact if_neg hd
  · cases h

/-! ### What a dollar looks at -/

/-- Behind the characters of a tag stands the `$` that ends it. -/
def endsTag : Text → Bool
  | [] => false
  | c :: r => if isTagChar c then endsTag r else c == '$'

theorem endsTag_eq (t : Text) : endsTag t = startsWith (· == '$') (t.dropWhile isTagChar) := by
  induction t with
  | nil => rfl
  | cons c r ih =>
    by_cases hc : isTagChar c = true
    · rw [endsTag, if_pos hc, ih, List.dropWhile_cons_of_pos hc]
    · rw [endsTag, if_neg hc, List.dropWhile_cons_of_neg hc]
      rfl

theorem startsDigit_takeWhile (t : Text) :
    startsWith Char.isDigit (t.takeWhile isTagChar) = startsWith Char.isDigit t := by
  cases t with
  | nil => rfl
  | cons c r =>
    by_cases hc : isTagChar c = true
    · rw [List.takeWhile_cons_of_pos hc]
      rfl
    · rw [List.takeWhile_cons_of_neg hc, startsWith, startsWith, (ne_of_not_isTagChar (by simpa using hc)).1]

theorem scanTag_isSome (t : Text) : (scanTag t).isSome = (endsTag t && !startsWith Char.isDigit t) := by
  rw [endsTag_eq, ← startsDigit_takeWhile, scanTag]
  split
  · rename_i r hr
    rw [hr]
    cases startsWith Char.isDigit (t.takeWhile isTagChar) <;> rfl
  · rename_i hr
    cases hd : t.dropWhile isTagChar with
    | nil => rfl
    | cons c r =>
      have hc : (c == '$') = false := by
        rw [beq_eq_false_iff_ne]
        rintro rfl
        exact hr r hd
      rw [startsWith, hc]
      rfl

theorem Alike.endsTag_eq {r r' : Text} (h : Alike true r r') : endsTag r' = endsTag r := by
  generalize hp : true = p at h
  induction h with
  | nil => rfl
  | @cons p c r r' _ ih =>
    by_cases hc : isTagChar c = true
    · rw [endsTag, endsTag, if_pos hc, if_pos hc, ih hc.symm]
    · rw [endsTag, endsTag, if_neg hc, if_neg hc]
  | stop hc =>
    have ht := (isBarrier_iff.1 hc).1
    rw [endsTag, endsTag, ht]
    rfl
  | digit => cases hp
  | dashes => rfl
  | gap hg hc =>
    obtain ⟨b, y, rfl, hb, hdollar, -⟩ := startsGap_head hg
    have hnot {x : Char} {t : Text} (hx : isWordChar x = false) (hd : x ≠ '$') : endsTag (x :: t) = false := by
      have ht : isTagChar x = false := by
        cases ht : isTagChar x with
        | true => exact absurd (isTagChar_isWordChar ht) (by simp [hx])
        | false => rfl
      rw [endsTag, ht]
      simpa using hd
    rw [hnot hb hdollar, hnot (opensGap_ne hc).1 (opensGap_ne hc).2.2.2.2.2.2.1]

theorem Alike.scanTag_isSome {p : Bool} {r r' : Text} (h : Alike p r r') : (scanTag r').isSome = (scanTag r).isSome := by
  rw [SqlLex.scanTag_isSome, SqlLex.scanTag_isSome, h.startsDigit]
  cases p with
  | true => rw [h.endsTag_eq]
  | false =>
    cases h with
    | @cons _ c r r' h =>
      by_cases hc : isTagChar c = true
      · rw [hc] at h
        rw [endsTag, endsTag, if_pos hc, if_pos hc, h.endsTag_eq]
      · rw [endsTag, endsTag, if_neg hc, if_neg hc]
    | digit hd => rw [startsWith, hd, Bool.not_true, Bool.and_false, Bool.and_false]
    | nil => rfl
    | stop hc => rw [(.stop hc : Alike true (_ :: _) (_ :: _)).endsTag_eq]
    | dashes => rfl
    | gap hg hc => rw [(Alike.gap hg hc : Alike true _ _).endsTag_eq]

/-! ### Exchanging what is behind a lexeme -/

/-- `r'` looks like `r` to every lexeme in front of them. No tag goes on with the digits of a number, which
is why they may be exchanged there. -/
def LooksLike (r r' : Text) : Prop := ∀ p : Bool, (p = true → startsWith Char.isDigit r = false) → Alike p r r'

theorem LooksLike.refl (r : Text) : LooksLike r r := fun p _ => Alike.refl p r

theorem LooksLike.of_alike {r r' : Text} (h : ∀ p, Alike p r r') : LooksLike r r' := fun p _ => h p

/-- A line comment ends where the line does. -/
def Item.isLineComment : Item → Bool
  | .lineComment _ => true
  | _ => false

theorem Takes.not_digit_of_tag {t r : Text} {i : Item} (h : Takes t i r) {p : Bool}
    (hp : i.render.foldl (fun _ c => isTagChar c) p = true) : startsWith Char.isDigit r = false := by
  have hlast (u : Text) (c : Char) : (u ++ [c]).foldl (fun _ c => isTagChar c) p = isTagChar c := by
    rw [List.foldl_append]
    rfl
  cases h with
  | @space c r hc =>
    have hc' := (opensGap_ne (c := c) (by simp [opensGap, hc])).1
    have ht : isTagChar c = true := hp
    rw [isTagChar_isWordChar ht] at hc'
    cases hc'
  | lineComment _ hr =>
    rcases hr with rfl | hr
    · rfl
    · obtain ⟨c, z, rfl, hc⟩ := exists_of_startsWith hr
      simp only [isNewline, Bool.or_eq_true, beq_iff_eq] at hc
      rcases hc with rfl | rfl <;> rfl
  | @blockComment _ b _ h =>
    have hr : (Item.blockComment b).render = ('/' :: '*' :: (b ++ ['*'])) ++ ['/'] := by simp [Item.render]
    rw [hr, hlast] at hp
    cases hp
  | @str _ b _ h =>
    rw [show (Item.str b).render = ('\'' :: b) ++ ['\''] from rfl, hlast] at hp
    cases hp
  | @quoted _ b _ h =>
    rw [show (Item.quoted b).render = ('"' :: b) ++ ['"'] from rfl, hlast] at hp
    cases hp
  | @estr e _ b _ he h =>
    rw [show (Item.estr e b).render = (e :: '\'' :: b) ++ ['\''] from rfl, hlast] at hp
    cases hp
  | @dollar _ tag _ b _ ht h =>
    have hr : (Item.dollar tag b).render = ('$' :: (tag ++ '$' :: (b ++ '$' :: tag))) ++ ['$'] := by simp [Item.render]
    rw [hr, hlast] at hp
    cases hp
  | number _ hn =>
    have hd := scanNumber_not_digit t
    rw [hn] at hd
    exact hd
  | word _ _ hr _ =>
    cases r with
    | nil => rfl
    | cons c z => exact isDigit_of_not_isWordChar hr
  | @punct c r hsp hw _ _ hn _ _ _ =>
    have hc : c.isDigit = false := by
      simp only [startsNumber, Bool.or_eq_false_iff] at hn
      exact hn.1
    have ht : isTagChar c = true := hp
    simp only [isTagChar, hw, hc, Bool.false_or] at ht
    cases ht

/-- What looks alike behind a lexeme looks alike with it in front. -/
theorem Takes.looksLike {t r r' : Text} {i : Item} (h : Takes t i r) (hr : LooksLike r r') :
    LooksLike (i.render ++ r) (i.render ++ r') :=
  fun _ _ => Alike.append i.render (hr _ fun hp => h.not_digit_of_tag hp)

theorem startsWith_append {f : Char → Bool} {u r r' : Text} (hr : startsWith f r = startsWith f r') :
    startsWith f (u ++ r) = startsWith f (u ++ r') := by
  cases u with
  | nil => exact hr
  | cons => rfl

/-- **A lexeme is taken in front of every text that looks alike.** -/
theorem Takes.alike {t r r' : Text} {i : Item} (h : Takes t i r) (hr : LooksLike r r')
    (hline : i.isLineComment → startsWith isNewline r → startsWith isNewline r') : Takes (i.render ++ r') i r' := by
  have ha : Alike false r r' := hr false (by simp)
  have hhead {f : Char → Bool} (hf : ∀ c, opensGap c → f c = false) (hs : startsWith f r = false) :
      startsWith f r' = false := ha.head hf hs
  cases h with
  | space hc => exact .space hc
  | lineComment hb hend =>
    refine .lineComment hb ?_
    rcases hend with rfl | hend
    · cases ha with
      | nil => exact .inl rfl
      | gap hg _ => cases hg
    · exact .inr (hline rfl hend)
  | @blockComment _ b _ h =>
    have hr' := @scanBlock_replace _ _ _ _ r' h
    simpa [Item.render] using Takes.blockComment hr'
  | @str u b _ h =>
    have hq : startsWith (· == '\'') r = false := scanQuote_not_quote h
    have hr' := scanQuote_replace h (hhead (fun c hc => by simpa using (opensGap_ne hc).2.1) hq)
    simpa [Item.render] using Takes.str hr'
  | @quoted u b _ h =>
    have hq : startsWith (· == '"') r = false := scanQuote_not_quote h
    have hr' := scanQuote_replace h (hhead (fun c hc => by simpa using (opensGap_ne hc).2.2.1) hq)
    simpa [Item.render] using Takes.quoted hr'
  | @estr e u b _ he h =>
    have hq : startsWith (· == '\'') r = false := scanEscape_not_quote h
    have hr' := scanEscape_replace h (hhead (fun c hc => by simpa using (opensGap_ne hc).2.1) hq)
    simpa [Item.render] using Takes.estr he hr'
  | @dollar _ tag _ b _ ht h =>
    have hr' := @scanUntil_replace _ _ _ _ r' h
    have ht' := scanTag_replace ht (b ++ ('$' :: (tag ++ ['$']) ++ r'))
    simpa [Item.render] using Takes.dollar ht' hr'
  | @number _ n _ hs hn =>
    have ht := scanNumber_eq t
    rw [hn] at ht
    subst ht
    have hd := scanNumber_not_digit (n ++ r)
    rw [hn] at hd
    have hall (p : Bool) : Alike p r r' := hr p fun _ => hd
    refine .number ?_ (Alike.number (p := false) hall hn)
    have hne := scanNumber_ne_nil hs
    rw [hn] at hne
    cases n with
    | nil => exact absurd rfl hne
    | cons c n =>
      rw [Item.render, List.cons_append, startsNumber] at *
      rw [startsWith_append ha.startsDigit]
      exact hs
  | @word c w _ hc hw hend he =>
    have hend' : startsWith isWordChar r' = false := hhead (fun c hc => (opensGap_ne hc).1) hend
    refine .word hc hw hend' ?_
    rintro ⟨hce, hq⟩
    cases w with
    | nil =>
      have hq' : startsWith (· == '\'') r = false := by
        cases hx : startsWith (· == '\'') r with
        | true => exact absurd ⟨hce, hx⟩ he
        | false => rfl
      have hq'' : startsWith (· == '\'') r' = false := hhead (fun c hc => by simpa using (opensGap_ne hc).2.1) hq'
      rw [List.nil_append, hq''] at hq
      cases hq
    | cons x w => exact he ⟨hce, hq⟩
  | @punct c _ hsp hw hq hdq hn hdash hstar hdollar =>
    show Takes (c :: r') (.punct c) r'
    refine .punct hsp hw hq hdq ?_ ?_ ?_ ?_
    · rw [startsNumber, ha.startsDigit]
      exact hn
    · rintro ⟨rfl, hd⟩
      have hd' : startsWith (· == '-') r' = false :=
        hhead (fun c hc => by simpa using (opensGap_ne hc).2.2.2.1) (by simpa using hdash)
      rw [hd'] at hd
      cases hd
    · rintro ⟨rfl, hd⟩
      have hd' : startsWith (· == '*') r' = false :=
        hhead (fun c hc => by simpa using (opensGap_ne hc).2.2.2.2.1) (by simpa using hstar)
      rw [hd'] at hd
      cases hd
    · rw [ha.scanTag_isSome]
      exact hdollar

/-- What is exchanged behind items, and what the items are then followed by. -/
theorem Placed.exchange {pre is js : List Item} (h : Placed (pre ++ is)) (hjs : Placed js)
    (hlike : LooksLike (renderAll is) (renderAll js))
    (hline : startsWith isNewline (renderAll is) → startsWith isNewline (renderAll js)) :
    Placed (pre ++ js) ∧ LooksLike (renderAll (pre ++ is)) (renderAll (pre ++ js)) ∧
      (startsWith isNewline (renderAll (pre ++ is)) → startsWith isNewline (renderAll (pre ++ js))) := by
  induction pre with
  | nil => exact ⟨hjs, hlike, hline⟩
  | cons i pre ih =>
    obtain ⟨hplaced, hlike', hline'⟩ := ih h.2
    refine ⟨⟨h.1.alike hlike' fun _ => hline', hplaced⟩, h.1.looksLike hlike', fun hn => ?_⟩
    rw [List.cons_append, renderAll_cons] at hn ⊢
    cases hi : i.render with
    | nil =>
      rw [hi] at hn
      exact hline' hn
    | cons => rwa [hi] at hn

/-- **Items stay where they are** when what is behind them is exchanged for something that looks alike. -/
theorem Placed.splice {pre is js : List Item} (h : Placed (pre ++ is)) (hjs : Placed js)
    (hlike : LooksLike (renderAll is) (renderAll js))
    (hline : startsWith isNewline (renderAll is) → startsWith isNewline (renderAll js)) : Placed (pre ++ js) :=
  (h.exchange hjs hlike hline).1

/-! ### Exchanging what is in a lexeme -/

theorem LooksLike.of_barrier {c : Char} (h : isBarrier c) (z z' : Text) : LooksLike (c :: z) (c :: z') :=
  fun _ _ => .stop h

/-- A string with another body. -/
theorem Takes.str_body {t b b' r : Text} (h : Takes t (.str b) r) (hb : scanQuote '\'' (b' ++ ['\'']) = some (b', [])) :
    Takes ((Item.str b').render ++ r) (.str b') r := by
  cases h with
  | str h => simpa [Item.render] using Takes.str (scanQuote_replace hb (scanQuote_not_quote h))

/-- A string with escapes with another body. -/
theorem Takes.estr_body {e : Char} {t b b' r : Text} (h : Takes t (.estr e b) r)
    (hb : scanEscape (b' ++ ['\'']) = some (b', [])) : Takes ((Item.estr e b').render ++ r) (.estr e b') r := by
  cases h with
  | estr he h => simpa [Item.render] using Takes.estr he (scanEscape_replace hb (scanEscape_not_quote h))

/-- A block comment with another body. -/
theorem Takes.blockComment_body {t b b' r : Text} (_ : Takes t (.blockComment b) r)
    (hb : scanBlock 0 (b' ++ ['*', '/']) = some (b', [])) :
    Takes ((Item.blockComment b').render ++ r) (.blockComment b') r := by
  have hscan : scanBlock 0 (b' ++ '*' :: '/' :: r) = some (b', r) := scanBlock_replace hb
  simpa [Item.render] using Takes.blockComment hscan

/-- A line comment with another body. -/
theorem Takes.lineComment_body {t b b' r : Text} (h : Takes t (.lineComment b) r) (hb : ∀ c ∈ b', isNewline c = false) :
    Takes ((Item.lineComment b').render ++ r) (.lineComment b') r := by
  cases h with
  | lineComment _ hr => exact .lineComment hb hr

theorem scanUntil_dollar (tag : Text) {b : Text} (hb : '$' ∉ b) (r : Text) :
    scanUntil ('$' :: (tag ++ ['$'])) (b ++ ('$' :: (tag ++ ['$'])) ++ r) = some (b, r) := by
  induction b with
  | nil =>
    have hdrop : dropPrefix? ('$' :: (tag ++ ['$'])) ('$' :: (tag ++ ['$']) ++ r) = some r := dropPrefix?_eq.2 rfl
    rw [List.nil_append]
    rw [List.cons_append] at hdrop ⊢
    rw [scanUntil, hdrop]
  | cons c b ih =>
    obtain ⟨hc, hb⟩ := List.ne_and_not_mem_of_not_mem_cons hb
    rw [List.cons_append, List.cons_append, scanUntil, dropPrefix?, if_neg hc, ih hb]
    rfl

/-- A dollar quote with another body. -/
theorem Takes.dollar_body {t tag b b' r : Text} (h : Takes t (.dollar tag b) r) (hb : '$' ∉ b') :
    Takes ((Item.dollar tag b').render ++ r) (.dollar tag b') r := by
  cases h with
  | dollar htag _ =>
    have htag' := scanTag_replace htag (b' ++ ('$' :: (tag ++ ['$'])) ++ r)
    simpa [Item.render] using Takes.dollar htag' (scanUntil_dollar tag hb r)

theorem isTagChar_of_scanTag {t tag r : Text} (h : scanTag t = some (tag, r)) : ∀ c ∈ tag, isTagChar c := by
  unfold scanTag at h
  split at h
  · split at h
    · cases h
    · simp only [Option.some.injEq, Prod.mk.injEq] at h
      obtain ⟨rfl, -⟩ := h
      exact fun c hc => List.mem_takeWhile_imp hc
  · cases h

theorem Takes.estr_letter {e : Char} {t b r : Text} (h : Takes t (.estr e b) r) : e = 'e' ∨ e = 'E' := by
  cases h with
  | estr he _ => exact he

theorem Takes.isTagChar_of_mem {t tag b r : Text} (h : Takes t (.dollar tag b) r) : ∀ c ∈ tag, isTagChar c := by
  cases h with
  | dollar htag _ => exact isTagChar_of_scanTag htag

theorem scanDigits_digit {d : Char} (hd : d.isDigit) (x : Text) :
    scanDigits (d :: x) = (d :: (scanDigits x).1, (scanDigits x).2) := by
  apply scanDigits_of_goesOn
  simp [goesOn, hd]

theorem scanDigits_underscore {d z : Char} (hd : d.isDigit) (hz : z.isDigit) (x : Text) :
    scanDigits (d :: '_' :: z :: x) = (d :: '_' :: z :: (scanDigits x).1, (scanDigits x).2) := by
  have hgoes : goesOn ('_' :: z :: x) = true := by simp [goesOn, startsWith, hz]
  rw [scanDigits_digit hd, scanDigits_of_goesOn hgoes, scanDigits_digit hz]

theorem scanNumber_append {p x : Text} (h : scanDigits (p ++ x) = (p ++ (scanDigits x).1, (scanDigits x).2)) :
    scanNumber (p ++ x) = (p ++ (scanNumber x).1, (scanNumber x).2) := by
  simp [scanNumber, h]

theorem scanNumber_point {y : Text} (hy : startsWith Char.isDigit y) : scanNumber ('.' :: y) =
    ('.' :: ((scanDigits y).1 ++ (scanExponent (scanDigits y).2).1), (scanExponent (scanDigits y).2).2) := by
  have hstop : scanDigits ('.' :: y) = ([], '.' :: y) := scanDigits_stop.2 (goesOn_of_ne (by decide) (by decide) y)
  simp [scanNumber, hstop, scanFraction, hy]

/-- A number starts with a digit, or with a point and a digit. -/
theorem Takes.number_start {t n r : Text} (h : Takes t (.number n) r) :
    (∃ d m, n = d :: m ∧ d.isDigit) ∨ ∃ d m, n = '.' :: d :: m ∧ d.isDigit := by
  cases h with
  | number hs hn =>
    cases t with
    | nil => cases hs
    | cons c t =>
      simp only [startsNumber, Bool.or_eq_true, Bool.and_eq_true, beq_iff_eq] at hs
      rcases hs with hd | ⟨rfl, hd⟩
      · have hscan := scanNumber_append (p := [c]) (x := t) (scanDigits_digit hd t)
        rw [List.singleton_append, hn] at hscan
        obtain ⟨rfl, -⟩ := Prod.mk.inj hscan
        exact .inl ⟨c, _, rfl, hd⟩
      · obtain ⟨d, t, rfl, hd⟩ := exists_of_startsWith hd
        rw [scanNumber_point hd, scanDigits_digit hd] at hn
        obtain ⟨rfl, -⟩ := Prod.mk.inj hn
        exact .inr ⟨d, _, rfl, hd⟩

/-- A number in which an underscore and a digit follow the first digit. -/
theorem Takes.number_digit {t n r : Text} {d z : Char} (h : Takes t (.number (d :: n)) r) (hd : d.isDigit)
    (hz : z.isDigit) : Takes (d :: '_' :: z :: n ++ r) (.number (d :: '_' :: z :: n)) r := by
  have ht : t = [d] ++ (n ++ r) := h.render
  cases h with
  | number _ hn =>
    subst ht
    rw [scanNumber_append (scanDigits_digit hd _)] at hn
    have hrest : scanNumber (n ++ r) = (n, r) := by simpa [Prod.ext_iff] using hn
    have hdigits : scanDigits ([d, '_', z] ++ (n ++ r)) = ([d, '_', z] ++ (scanDigits (n ++ r)).1, (scanDigits (n ++ r)).2) :=
      scanDigits_underscore hd hz (n ++ r)
    have hnew := scanNumber_append hdigits
    rw [hrest] at hnew
    refine .number ?_ hnew
    simp [startsNumber, hd]

/-- The same in a number that starts with its point. -/
theorem Takes.number_point {t n r : Text} {d z : Char} (h : Takes t (.number ('.' :: d :: n)) r) (hd : d.isDigit)
    (hz : z.isDigit) : Takes ('.' :: d :: '_' :: z :: n ++ r) (.number ('.' :: d :: '_' :: z :: n)) r := by
  have ht : t = '.' :: d :: (n ++ r) := h.render
  have hdigit (x : Text) : startsWith Char.isDigit (d :: x) = true := hd
  cases h with
  | number _ hn =>
    subst ht
    rw [scanNumber_point (hdigit _), scanDigits_digit hd] at hn
    refine .number ?_ ?_
    · simp [startsNumber, startsWith, hd]
    · show scanNumber ('.' :: d :: '_' :: z :: (n ++ r)) = _
      rw [scanNumber_point (hdigit _), scanDigits_underscore hd hz]
      simp_all

end SqlLex
