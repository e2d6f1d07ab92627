import Latiq.AgentCore.Redact

/-!
# What a redacted text depends on

`redact_sql` is meant to hide what is in the literals and in the comments of a SQL text.
It does where two texts that are the same up to these contents (`Parens.shape`) come out
the same. Its loops do not read a text as the SQL lexer does: they know neither quoted
identifiers nor strings with escapes, dollar quotes or comments in comments, and a number
ends for them before an exponent or an underscore.

* `covered` — where the loops stand at each item, its contents do not show.

## What is proved

* `run_eq_of_covered` — texts of one shape come out the same where the contents of no item
  show, by induction on the items, with the loops in one state behind each (`absorbed`).
* `shows` — an item whose contents show is written in two ways that come out differently.
* `redaction_hides_iff` — the two together.
* `quote_in_identifier_leaks` — a quote in a quoted identifier.
-/

namespace Latiq.AgentCore

open SqlLex

/-! ### The shape of a text -/

/-- The parentheses around a token, and the token before it. -/
structure Parens where
  /-- The token before is the keyword of a parameterised type. -/
  typeWord : Bool
  /-- Whether such a keyword is before each open parenthesis, the innermost one first. -/
  opened : List Bool

namespace Parens

/-- At the start of a text. -/
def start : Parens := ⟨false, []⟩

/-- Behind an item. Whitespace and comments change nothing. -/
def next (p : Parens) : Item → Parens
  | .space _ | .lineComment _ | .blockComment _ => p
  | .word w => { p with typeWord := isParameterisedType w }
  | .punct c =>
    if c = '(' then ⟨false, p.typeWord :: p.opened⟩
    else if c = ')' then ⟨false, p.opened.tail⟩
    else { p with typeWord := false }
  | _ => { p with typeWord := false }

/-- Directly inside the parentheses of a parameterised type. -/
def inType (p : Parens) : Bool := p.opened.headD false

/-- An item without the contents of its literal or its comment. -/
def hide (p : Parens) : Item → Item
  | .str _ => .str []
  | .estr e _ => .estr e []
  | .dollar tag _ => .dollar tag []
  | .number n => if p.inType then .number n else .number []
  | .lineComment _ => .lineComment []
  | .blockComment _ => .blockComment []
  | i => i

/-- Behind several items. -/
def after (p : Parens) (is : List Item) : Parens := is.foldl next p

/-- The items without the contents of their literals and comments. -/
def shape : Parens → List Item → List Item
  | _, [] => []
  | p, i :: is => p.hide i :: shape (p.next i) is

/-- Two items that differ in the contents of a literal or of a comment at most. -/
inductive Twins (p : Parens) : Item → Item → Prop where
  | same (i : Item) : Twins p i i
  | str (b b' : Text) : Twins p (.str b) (.str b')
  | estr (e : Char) (b b' : Text) : Twins p (.estr e b) (.estr e b')
  | dollar (tag b b' : Text) : Twins p (.dollar tag b) (.dollar tag b')
  | number (n n' : Text) : p.inType = false → Twins p (.number n) (.number n')
  | lineComment (b b' : Text) : Twins p (.lineComment b) (.lineComment b')
  | blockComment (b b' : Text) : Twins p (.blockComment b) (.blockComment b')

theorem twins_of_hide {p : Parens} {i j : Item} (h : p.hide i = p.hide j) : Twins p i j := by
  cases hp : p.inType <;> cases i <;> cases j <;> simp only [hide, hp, if_true, if_false, Bool.false_eq_true] at h <;>
    cases h <;> constructor
  assumption

theorem Twins.next {p : Parens} {i j : Item} (h : Twins p i j) : p.next i = p.next j := by
  cases h <;> rfl

theorem shape_append (p : Parens) (is js : List Item) : p.shape (is ++ js) = p.shape is ++ (p.after is).shape js := by
  induction is generalizing p with
  | nil => rfl
  | cons i is ih => exact congrArg (p.hide i :: ·) (ih _)

/-- Items are exchanged for one that looks the same. -/
theorem shape_exchange {p : Parens} {pre post : List Item} {i j : Item} (h : (p.after pre).hide i = (p.after pre).hide j) :
    p.shape (pre ++ i :: post) = p.shape (pre ++ j :: post) := by
  rw [shape_append, shape_append, shape, shape, h, (twins_of_hide h).next]

end Parens

/-! ### Where the contents of an item do not show -/

/-- The contents of an item do not show when `strip_sql_comments` stands there. -/
def hides (m : Stripping) (inType : Bool) : Item → Bool
  | .str _ => m = .code ∨ m = .pair
  | .estr _ _ | .dollar _ _ | .blockComment _ => false
  | .number _ => inType ∨ m = .string ∨ m = .line ∨ m = .block false ∨ m = .block true
  | .lineComment _ => m = .code ∨ m = .line
  | _ => true

/-- The contents of no item show. -/
def covered : Stripping → Parens → List Item → Bool
  | _, _, [] => true
  | m, p, i :: is =>
    hides m p.inType i && covered (stripper.after m i.render (renderAll is).head?) (p.next i) is

/-! ### The two loops in step -/

/-- `redact_sql` is in a string. -/
def Redacting.inString : Redacting → Bool
  | .string _ => true
  | _ => false

/-- `redact_sql` is in a string where `strip_sql_comments` is, and in a state with the next character in mind it stands
before that character. -/
def InStep : Stripping × Redacting → Option Char → Prop
  | (.string, q), _ => q.inString
  | (.pair, q), p => (∃ s, q = .quote s) ∧ p = some '\''
  | (.opening, q), p => q.inString = false ∧ p = some '*'
  | (_, q), _ => q.inString = false

theorem inStep_start (p : Option Char) : InStep (.code, .code .start) p := rfl

theorem inString_round (s : Reading) {c : Char} (hc : c ≠ '\'') : (s.round c).1.inString = false := by
  rw [Reading.round, if_neg hc]
  split
  · rfl
  · rfl

theorem inString_read {q : Redacting} {c : Char} (hq : q.inString = false) (hc : c ≠ '\'') :
    (q.read c).1.inString = false := by
  cases q with
  | code s => exact inString_round s hc
  | number s =>
    rw [Redacting.read]
    split
    · rfl
    · exact inString_round _ hc
  | string s => cases hq
  | quote s =>
    rw [Redacting.read, if_neg hc]
    exact inString_round _ hc

theorem inString_read_quote {q : Redacting} (hq : q.inString = false) : (q.read '\'').1.inString = true := by
  cases q with
  | string s => cases hq
  | _ => rfl

theorem scanner_step (m : Stripping) (q : Redacting) (c : Char) (p : Option Char) :
    scanner.step (m, q) c p = (m.step c p, redactor.after q (m.out c p) none) := rfl

theorem inStep_step {s : Stripping × Redacting} {c : Char} {p : Option Char} (h : InStep s (some c)) :
    InStep (scanner.step s c p) p := by
  obtain ⟨m, q⟩ := s
  rw [scanner_step]
  cases m with
  | code =>
    have hq : q.inString = false := h
    by_cases hc : c = '\''
    · subst hc
      simpa [Stripping.step, Stripping.out, InStep] using inString_read_quote hq
    · by_cases hline : c = '-' ∧ p = some '-'
      · simpa [Stripping.step, Stripping.out, InStep, hc, hline] using hq
      · by_cases hblock : c = '/' ∧ p = some '*'
        · simpa [Stripping.step, Stripping.out, InStep, hc, hline, hblock] using hq
        · simpa [Stripping.step, Stripping.out, InStep, hc, hline, hblock] using inString_read hq hc
  | string =>
    cases q with
    | string s =>
      by_cases hc : c = '\''
      · by_cases hp : p = some '\''
        · simp [Stripping.step, Stripping.out, InStep, Redacting.read, hc, hp]
        · simp [Stripping.step, Stripping.out, InStep, Redacting.read, Redacting.inString, hc, hp]
      · simp [Stripping.step, Stripping.out, InStep, Redacting.read, Redacting.inString, hc]
    | _ => cases h
  | pair =>
    obtain ⟨⟨s, rfl⟩, hc⟩ := h
    cases hc
    rfl
  | line =>
    have hq : q.inString = false := h
    by_cases hc : c = '\n'
    · subst hc
      simpa [Stripping.step, Stripping.out, InStep] using inString_read hq (by decide)
    · simpa [Stripping.step, Stripping.out, InStep, hc] using hq
  | opening => exact h.1
  | block star =>
    have hq : q.inString = false := h
    by_cases hc : star ∧ c = '/'
    · simpa [Stripping.step, Stripping.out, InStep, hc] using inString_read hq (by decide)
    · simpa [Stripping.step, Stripping.out, InStep, hc] using hq

theorem inStep_after {s : Stripping × Redacting} {u : Text} {p : Option Char} (h : InStep s (u.head?.or p)) :
    InStep (scanner.after s u p) p :=
  Scanner.after_invariant scanner (fun _ _ _ => inStep_step) h

/-- Two characters that `strip_sql_comments` does not tell apart when it peeks at them. -/
def PeekAlike (p p' : Option Char) : Prop := ∀ c ∈ ['\'', '-', '*'], p = some c ↔ p' = some c

theorem peekAlike_of_ne {z w : Char} (hz : z ∉ ['\'', '-', '*']) (hw : w ∉ ['\'', '-', '*']) :
    PeekAlike (some z) (some w) := by
  intro c hc
  refine iff_of_false ?_ ?_
  · rintro ⟨⟩
    exact hz hc
  · rintro ⟨⟩
    exact hw hc

theorem stripper_sees {p p' : Option Char} (h : PeekAlike p p') : stripper.Sees p p' := by
  have h₁ := h '\'' (by decide)
  have h₂ := h '-' (by decide)
  have h₃ := h '*' (by decide)
  intro s c
  cases s <;> simp [Stripping.step, Stripping.out, h₁, h₂, h₃]

theorem scanner_sees {p p' : Option Char} (h : PeekAlike p p') : scanner.Sees p p' := (stripper_sees h).comp redactor

theorem inStep_peek {s : Stripping × Redacting} {p p' : Option Char} (hp : PeekAlike p p') (h : InStep s p) :
    InStep s p' := by
  obtain ⟨m, q⟩ := s
  cases m with
  | pair => exact ⟨h.1, (hp '\'' (by decide)).1 h.2⟩
  | opening => exact ⟨h.1, (hp '*' (by decide)).1 h.2⟩
  | _ => exact h

/-! ### Runs over literals and comments -/

theorem stripper_string_run {u : Text} (hu : '\'' ∉ u) (p : Option Char) :
    stripper.after .string u p = .string ∧ stripper.emits .string u p = u := by
  induction u with
  | nil => exact ⟨rfl, rfl⟩
  | cons c u ih =>
    obtain ⟨hc, hu⟩ := List.ne_and_not_mem_of_not_mem_cons hu
    simpa [Stripping.step, Stripping.out, hc.symm] using ih hu

theorem stripper_line_run {u : Text} (hu : '\n' ∉ u) (p : Option Char) :
    stripper.after .line u p = .line ∧ stripper.emits .line u p = [] := by
  induction u with
  | nil => exact ⟨rfl, rfl⟩
  | cons c u ih =>
    obtain ⟨hc, hu⟩ := List.ne_and_not_mem_of_not_mem_cons hu
    simpa [Stripping.step, Stripping.out, hc.symm] using ih hu

theorem stripper_block_run {u : Text} (hu : ∀ c ∈ u, c ≠ '*' ∧ c ≠ '/') (hne : u ≠ []) (star : Bool) (p : Option Char) :
    stripper.after (.block star) u p = .block false ∧ stripper.emits (.block star) u p = [] := by
  induction u generalizing star with
  | nil => exact absurd rfl hne
  | cons c u ih =>
    obtain ⟨hstar, hslash⟩ := hu c (List.mem_cons_self ..)
    cases u with
    | nil => simp [Stripping.step, Stripping.out, hstar, hslash]
    | cons d u =>
      have htail := ih (fun c hc => hu c (List.mem_cons_of_mem _ hc)) (List.cons_ne_nil _ _) false
      simpa [Stripping.step, Stripping.out, hstar, hslash] using htail

theorem redactor_string_run {u : Text} (hu : '\'' ∉ u) (s : Reading) (p : Option Char) :
    redactor.after (.string s) u p = .string s ∧ redactor.emits (.string s) u p = [] := by
  induction u with
  | nil => exact ⟨rfl, rfl⟩
  | cons c u ih =>
    obtain ⟨hc, hu⟩ := List.ne_and_not_mem_of_not_mem_cons hu
    simpa [Redacting.read, hc.symm] using ih hu

/-- Up to the quote that closes a string. -/
theorem stripper_closes (t : Text) {p : Option Char} (hp : p ≠ some '\'') :
    stripper.after .string (double '\'' t ++ ['\'']) p = .code ∧
      stripper.emits .string (double '\'' t ++ ['\'']) p = double '\'' t ++ ['\''] := by
  induction t with
  | nil => simp [double, Stripping.step, Stripping.out, hp]
  | cons c t ih =>
    rw [double_cons]
    by_cases hc : c = '\''
    · simpa [Stripping.step, Stripping.out, hc] using ih
    · simpa [Stripping.step, Stripping.out, hc] using ih

theorem redactor_closes (t : Text) (s : Reading) (p : Option Char) :
    redactor.after (.string s) (double '\'' t ++ ['\'']) p = .quote s ∧
      redactor.emits (.string s) (double '\'' t ++ ['\'']) p = [] := by
  induction t with
  | nil => exact ⟨rfl, rfl⟩
  | cons c t ih =>
    rw [double_cons]
    by_cases hc : c = '\''
    · simpa [Redacting.read, hc] using ih
    · simpa [Redacting.read, hc] using ih

theorem scanner_after (m : Stripping) (q : Redacting) (u : Text) (p : Option Char) :
    scanner.after (m, q) u p = (stripper.after m u p, redactor.after q (stripper.emits m u p) none) :=
  Scanner.comp_after redactor_blind ..

theorem scanner_emits (m : Stripping) (q : Redacting) (u : Text) (p : Option Char) :
    scanner.emits (m, q) u p = redactor.emits q (stripper.emits m u p) none :=
  Scanner.comp_emits redactor_blind ..

/-- A string that starts where both loops expect one leaves a `?` if it leaves anything. -/
theorem str_absorbed {b r t : Text} (h : Takes t (.str b) r) {m : Stripping} {q : Redacting} {s : Reading}
    (hm : m = .code ∨ m = .pair) (hq : (q.read '\'').1 = .string s) :
    scanner.after (m, q) (Item.str b).render r.head? = (.code, .quote s) ∧
      scanner.emits (m, q) (Item.str b).render r.head? = (q.read '\'').2 := by
  cases h with
  | @str t _ _ h =>
    have hp : r.head? ≠ some '\'' := by
      rw [ne_eq, head_eq_iff, scanQuote_not_quote h]
      exact Bool.false_ne_true
    have hopen (p : Option Char) : m.step '\'' p = .string ∧ m.out '\'' p = ['\''] := by
      rcases hm with rfl | rfl
      · simp [Stripping.step, Stripping.out]
      · exact ⟨rfl, rfl⟩
    obtain ⟨hafter, hemits⟩ := stripper_closes (undouble '\'' b) hp
    obtain ⟨hafter', hemits'⟩ := redactor_closes (undouble '\'' b) s none
    rw [double_undouble_of_scanQuote h] at hafter hemits hafter' hemits'
    rw [scanner_after, scanner_emits, Item.render, stripper.after_cons, stripper.emits_cons, stripper_step, stripper_out,
      (hopen _).1, (hopen _).2, hafter, hemits, redactor_blind.after_append, redactor_blind.emits_append]
    simp only [Scanner.after_cons, Scanner.after_nil, Scanner.emits_cons, Scanner.emits_nil, redactor_step, redactor_out,
      hq, hafter', hemits', List.append_nil, and_self]

/-- A number where `strip_sql_comments` is in a string or in a comment leaves nothing. -/
theorem number_absorbed {n r t : Text} (h : Takes t (.number n) r) {m : Stripping} {q : Redacting}
    (hm : m = .string ∨ m = .line ∨ m = .block false ∨ m = .block true) (hin : InStep (m, q) n.head?) (p : Option Char) :
    scanner.after (m, q) n p = (if m = .block true then .block false else m, q) ∧ scanner.emits (m, q) n p = [] := by
  cases h with
  | number hs hn =>
    have hchar : ∀ c ∈ n, isNumberChar c = true := by
      intro c hc
      refine isNumberChar_of_mem_scanNumber (t := t) ?_
      rwa [hn]
    have hne : n ≠ [] := by
      have hne := scanNumber_ne_nil hs
      rwa [hn] at hne
    have hnot {c : Char} (hc : isNumberChar c = false) : c ∉ n := by
      intro hmem
      rw [hchar c hmem] at hc
      cases hc
    rw [scanner_after, scanner_emits]
    rcases hm with rfl | rfl | rfl | rfl
    · cases q with
      | string s =>
        have hquote : '\'' ∉ n := hnot (by decide)
        rw [(stripper_string_run hquote p).1, (stripper_string_run hquote p).2, (redactor_string_run hquote s none).1,
          (redactor_string_run hquote s none).2]
        exact ⟨rfl, rfl⟩
      | _ => cases hin
    · have hline : '\n' ∉ n := hnot (by decide)
      rw [(stripper_line_run hline p).1, (stripper_line_run hline p).2]
      exact ⟨rfl, rfl⟩
    all_goals
      have hblock : ∀ c ∈ n, c ≠ '*' ∧ c ≠ '/' := by
        intro c hc
        refine ⟨?_, ?_⟩
        · rintro rfl
          exact hnot (by decide) hc
        · rintro rfl
          exact hnot (by decide) hc
      rw [(stripper_block_run hblock hne _ p).1, (stripper_block_run hblock hne _ p).2]
      exact ⟨rfl, rfl⟩

/-- A line comment that starts where `strip_sql_comments` expects one, or is in one, leaves nothing. -/
theorem lineComment_absorbed {b r t : Text} (h : Takes t (.lineComment b) r) {m : Stripping} (hm : m = .code ∨ m = .line)
    (q : Redacting) (p : Option Char) :
    scanner.after (m, q) (Item.lineComment b).render p = (.line, q) ∧
      scanner.emits (m, q) (Item.lineComment b).render p = [] := by
  cases h with
  | lineComment hb hr =>
    have hline : '\n' ∉ '-' :: b := by
      intro hmem
      rcases List.mem_cons.1 hmem with hc | hmem
      · cases hc
      · exact absurd (hb _ hmem) (by decide)
    have hopen : m.step '-' (some '-') = .line ∧ m.out '-' (some '-') = [] := by
      rcases hm with rfl | rfl
      · exact ⟨rfl, rfl⟩
      · exact ⟨rfl, rfl⟩
    obtain ⟨hafter, hemits⟩ := stripper_line_run hline p
    rw [scanner_after, scanner_emits, Item.render, stripper.after_cons, stripper.emits_cons, List.head?_cons, Option.some_or,
      stripper_step, stripper_out, hopen.1, hopen.2, hafter, hemits]
    exact ⟨rfl, rfl⟩

/-- **An item whose contents do not show** is the same to the loops as any other of its shape. -/
theorem absorbed {p : Parens} {i j : Item} {t t' r r' : Text} (hi : Takes t i r) (hj : Takes t' j r')
    (hij : p.Twins i j) {m : Stripping} {q : Redacting} (hm : hides m p.inType i) (hin : InStep (m, q) i.render.head?)
    (hinj : InStep (m, q) j.render.head?) (hr : PeekAlike r.head? r'.head?) :
    scanner.after (m, q) i.render r.head? = scanner.after (m, q) j.render r'.head? ∧
      scanner.emits (m, q) i.render r.head? = scanner.emits (m, q) j.render r'.head? := by
  cases hij with
  | same i => exact ⟨Scanner.sees_after (scanner_sees hr) .., Scanner.sees_emits (scanner_sees hr) ..⟩
  | str b b' =>
    have hm' : m = .code ∨ m = .pair := by simpa [hides] using hm
    have hread : ∃ s, (q.read '\'').1 = .string s := by
      rcases hm' with rfl | rfl
      · have hread := inString_read_quote (q := q) hin
        cases hstate : (q.read '\'').1 with
        | string s => exact ⟨s, rfl⟩
        | _ =>
          rw [hstate] at hread
          cases hread
      · obtain ⟨⟨s, rfl⟩, -⟩ := hin
        exact ⟨s, rfl⟩
    obtain ⟨s, hs⟩ := hread
    have h₁ := str_absorbed hi hm' hs
    have h₂ := str_absorbed hj hm' hs
    exact ⟨h₁.1.trans h₂.1.symm, h₁.2.trans h₂.2.symm⟩
  | number n n' hp =>
    have hm' : m = .string ∨ m = .line ∨ m = .block false ∨ m = .block true := by simpa [hides, hp] using hm
    have h₁ := number_absorbed hi hm' hin r.head?
    have h₂ := number_absorbed hj hm' hinj r'.head?
    exact ⟨h₁.1.trans h₂.1.symm, h₁.2.trans h₂.2.symm⟩
  | lineComment b b' =>
    have hm' : m = .code ∨ m = .line := by simpa [hides] using hm
    have h₁ := lineComment_absorbed hi hm' q r.head?
    have h₂ := lineComment_absorbed hj hm' q r'.head?
    exact ⟨h₁.1.trans h₂.1.symm, h₁.2.trans h₂.2.symm⟩
  | estr | dollar | blockComment => cases hm

/-! ### Texts of one shape -/

theorem number_head {n r t : Text} (h : Takes t (.number n) r) : ∃ c u, n = c :: u ∧ (c.isDigit ∨ c = '.') := by
  have ht : t = n ++ r := h.render
  have hne : n ≠ [] := h.render_ne_nil
  obtain ⟨c, u, rfl⟩ := List.exists_cons_of_ne_nil hne
  refine ⟨c, u, rfl, ?_⟩
  cases h with
  | number hs _ =>
    rw [ht, List.cons_append, startsNumber] at hs
    simp only [Bool.or_eq_true, Bool.and_eq_true, beq_iff_eq] at hs
    exact hs.imp id And.left

/-- The first characters of two items of one shape. -/
theorem Parens.Twins.peekAlike {p : Parens} {i j : Item} {t t' r r' : Text} (hi : Takes t i r) (hj : Takes t' j r')
    (hij : p.Twins i j) : PeekAlike i.render.head? j.render.head? := by
  cases hij with
  | number n n' =>
    have hdigit {n r t : Text} (h : Takes t (.number n) r) : ∀ c ∈ ['\'', '-', '*'], n.head? ≠ some c := by
      obtain ⟨d, u, rfl, hd⟩ := number_head h
      intro c hc heq
      cases heq
      rcases hd with hd | rfl
      · simp only [List.mem_cons, List.not_mem_nil, or_false] at hc
        rcases hc with rfl | rfl | rfl <;> simp at hd
      · exact absurd hc (by decide)
    intro c hc
    exact iff_of_false (hdigit hi c hc) (hdigit hj c hc)
  | _ => exact fun _ _ => Iff.rfl

theorem peekAlike_of_shape {p : Parens} {is js : List Item} (his : Placed is) (hjs : Placed js)
    (h : p.shape is = p.shape js) : PeekAlike (renderAll is).head? (renderAll js).head? := by
  cases is with
  | nil =>
    cases js with
    | nil => exact fun _ _ => Iff.rfl
    | cons => cases h
  | cons i is =>
    cases js with
    | nil => cases h
    | cons j js =>
      have hij := Parens.twins_of_hide (List.cons.inj h).1
      have hhead := hij.peekAlike his.1 hjs.1
      rw [renderAll_cons, renderAll_cons, List.head?_append_of_ne_nil _ his.1.render_ne_nil,
        List.head?_append_of_ne_nil _ hjs.1.render_ne_nil]
      exact hhead

/-- **Texts of one shape come out the same** where the contents of no item show. -/
theorem run_eq_of_covered {p : Parens} {is js : List Item} (his : Placed is) (hjs : Placed js)
    (hshape : p.shape is = p.shape js) {m : Stripping} {q : Redacting} (hcov : covered m p is)
    (hin : InStep (m, q) (renderAll is).head?) : scanner.run (m, q) (renderAll is) = scanner.run (m, q) (renderAll js) := by
  induction is generalizing js p m q with
  | nil =>
    cases js with
    | nil => rfl
    | cons => cases hshape
  | cons i is ih =>
    cases js with
    | nil => cases hshape
    | cons j js =>
      obtain ⟨hhide, hshape'⟩ := List.cons.inj hshape
      have hij := Parens.twins_of_hide hhide
      rw [covered, Bool.and_eq_true] at hcov
      rw [renderAll_cons, List.head?_append_of_ne_nil _ his.1.render_ne_nil] at hin
      have hinj := inStep_peek (hij.peekAlike his.1 hjs.1) hin
      rw [← hij.next] at hshape'
      have hpeek := peekAlike_of_shape his.2 hjs.2 hshape'
      obtain ⟨hafter, hemits⟩ := absorbed his.1 hjs.1 hij hcov.1 hin hinj hpeek
      have hin' : InStep (scanner.after (m, q) i.render (renderAll is).head?) (renderAll is).head? := by
        refine inStep_after ?_
        obtain ⟨c, u, hi⟩ := List.exists_cons_of_ne_nil his.1.render_ne_nil
        rw [hi] at hin ⊢
        exact hin
      rw [renderAll_cons, renderAll_cons, Scanner.run_append, Scanner.run_append, ← hemits, ← hafter]
      rw [scanner_after] at hin' ⊢
      exact congrArg (scanner.emits (m, q) i.render (renderAll is).head? ++ ·) (ih his.2 hjs.2 hshape' hcov.2 hin')

/-! ### Where the contents of an item show -/

/-- Another text of the shape comes out differently. -/
def Shows (is : List Item) : Prop :=
  ∃ js, Placed js ∧ Parens.start.shape js = Parens.start.shape is ∧ redactSql (renderAll js) ≠ redactSql (renderAll is)

/-- Up to where two texts differ they come out the same, and there they differ if what they differ in is written. -/
theorem outputs_differ {u v v' : Text} {z w : Char} {m : Stripping} {q q' : Redacting} (hzw : z ≠ w)
    (hpeek : PeekAlike (some z) (some w)) (hstate : scanner.after (m, q) u (some z) = (.code, q'))
    (hz : ∀ p, (Stripping.code.out z p, (q'.read z).2) = ([z], [z]))
    (hw : ∀ p, (Stripping.code.out w p, (q'.read w).2) = ([w], [w])) :
    scanner.run (m, q) (u ++ z :: v) ≠ scanner.run (m, q) (u ++ w :: v') := by
  have hwrites {c : Char} {p : Option Char} (hc : (Stripping.code.out c p, (q'.read c).2) = ([c], [c])) :
      scanner.out (.code, q') c p = [c] := by
    obtain ⟨hout, hread⟩ := Prod.mk.inj hc
    show redactor.emits q' (Stripping.code.out c p) none = [c]
    rw [hout]
    simpa using hread
  intro heq
  rw [Scanner.run_append, Scanner.run_append, List.head?_cons, List.head?_cons, ← Scanner.sees_after (scanner_sees hpeek),
    ← Scanner.sees_emits (scanner_sees hpeek), hstate, Scanner.run_cons, Scanner.run_cons, hwrites (hz _),
    hwrites (hw _)] at heq
  exact hzw (List.cons.inj (List.append_cancel_left heq)).1

/-- The contents of the item `i` show if it can be written with `z` and with `w` where these are written. -/
theorem shows {pre post : List Item} {i : Item} (hplaced : Placed (pre ++ i :: post)) {f : Char → Item} {C D : Text}
    {z w : Char} (hzw : z ≠ w) (hpeek : PeekAlike (some z) (some w))
    (hf : ∀ c, c = z ∨ c = w → (f c).render = C ++ c :: D ∧
      (Parens.start.after pre).hide i = (Parens.start.after pre).hide (f c) ∧
      Takes ((f c).render ++ renderAll post) (f c) (renderAll post) ∧
      LooksLike (i.render ++ renderAll post) ((f c).render ++ renderAll post))
    (hhead : C.head? = i.render.head?) {q : Redacting}
    (hstate : scanner.after (.code, .code .start) (renderAll pre ++ C) (some z) = (.code, q))
    (hwrites : ∀ c, c = z ∨ c = w → ∀ p, (Stripping.code.out c p, (q.read c).2) = ([c], [c])) :
    Shows (pre ++ i :: post) := by
  have hi : Takes (i.render ++ renderAll post) i (renderAll post) := hplaced.of_append.1
  obtain ⟨d, u, hd⟩ := List.exists_cons_of_ne_nil hi.render_ne_nil
  obtain ⟨C', rfl⟩ : ∃ C', C = d :: C' := by
    cases C with
    | nil =>
      rw [hd] at hhead
      cases hhead
    | cons x C' =>
      rw [hd] at hhead
      cases hhead
      exact ⟨C', rfl⟩
  have hsplice {c : Char} (hc : c = z ∨ c = w) : Placed (pre ++ f c :: post) := by
    obtain ⟨hrender, -, htakes, hlike⟩ := hf c hc
    refine hplaced.splice ⟨htakes, hplaced.of_append.2⟩ hlike fun hline => ?_
    rw [renderAll_cons, hd] at hline
    rw [renderAll_cons, hrender]
    exact hline
  have hshape {c : Char} (hc : c = z ∨ c = w) :
      Parens.start.shape (pre ++ f c :: post) = Parens.start.shape (pre ++ i :: post) :=
    (Parens.shape_exchange (hf c hc).2.1).symm
  have htext {c : Char} (hc : c = z ∨ c = w) :
      renderAll (pre ++ f c :: post) = (renderAll pre ++ d :: C') ++ c :: (D ++ renderAll post) := by
    rw [renderAll_append, renderAll_cons, (hf c hc).1]
    simp
  have hdiffer : redactSql (renderAll (pre ++ f z :: post)) ≠ redactSql (renderAll (pre ++ f w :: post)) := by
    rw [redactSql_eq, redactSql_eq, htext (.inl rfl), htext (.inr rfl)]
    exact outputs_differ hzw hpeek hstate (hwrites z (.inl rfl)) (hwrites w (.inr rfl))
  by_cases hz : redactSql (renderAll (pre ++ f z :: post)) = redactSql (renderAll (pre ++ i :: post))
  · exact ⟨_, hsplice (.inr rfl), hshape (.inr rfl), fun hw => hdiffer (hz.trans hw.symm)⟩
  · exact ⟨_, hsplice (.inl rfl), hshape (.inl rfl), hz⟩

/-- Behind a text that is followed by neither a quote nor a `*`, no pair of characters is cut in two. -/
theorem stripper_states {u : Text} {h : Char} (hquote : h ≠ '\'') (hstar : h ≠ '*') {m : Stripping}
    (hm : stripper.after .code u (some h) = m) : m = .code ∨ m = .string ∨ m = .line ∨ ∃ star, m = .block star := by
  have hin : InStep (scanner.after (.code, .code .start) u (some h)) (some h) := inStep_after (inStep_start _)
  rw [scanner_after, hm] at hin
  cases m with
  | code => exact .inl rfl
  | string => exact .inr (.inl rfl)
  | pair => exact absurd (Option.some.inj hin.2) hquote
  | line => exact .inr (.inr (.inl rfl))
  | opening => exact absurd (Option.some.inj hin.2) hstar
  | block star => exact .inr (.inr (.inr ⟨star, rfl⟩))

/-- A letter is written where no loop is in a string or in a comment. -/
theorem letter_written {q : Redacting} (hq : q.inString = false) {c : Char} (hc : c = 'e' ∨ c = 'E') (p : Option Char) :
    (Stripping.code.out c p, (q.read c).2) = ([c], [c]) := by
  have hout : Stripping.code.out c p = [c] := by
    rcases hc with rfl | rfl
    · simp [Stripping.out]
    · simp [Stripping.out]
  have hround (s : Reading) : (s.round c).2 = [c] := by
    rcases hc with rfl | rfl
    · simp [Reading.round]
    · simp [Reading.round]
  have hread : (q.read c).2 = [c] := by
    cases q with
    | code s => exact hround s
    | number s =>
      have hnumber : inNumber c = false := by
        rcases hc with rfl | rfl
        · rfl
        · rfl
      rw [Redacting.read, hnumber]
      exact hround _
    | string s => cases hq
    | quote s =>
      have hquote : c ≠ '\'' := by
        rcases hc with rfl | rfl
        · decide
        · decide
      rw [Redacting.read, if_neg hquote]
      exact hround _
  rw [hout, hread]

/-- The state behind the start `C` of an item, when `strip_sql_comments` is in its outer loop there. -/
theorem state_behind {pre : List Item} {C : Text} {h : Option Char} (hne : C ≠ []) (hhead : C.head? = h) {z : Char}
    {m : Stripping} (hm : stripper.after .code (renderAll pre) h = m) (hC : stripper.after m C (some z) = .code) :
    ∃ q : Redacting, q.inString = false ∧
      scanner.after (.code, .code .start) (renderAll pre ++ C) (some z) = (.code, q) := by
  have hcode : stripper.after .code (renderAll pre ++ C) (some z) = .code := by
    obtain ⟨c, C, rfl⟩ := List.exists_cons_of_ne_nil hne
    subst hhead
    rw [Scanner.after_append, List.head?_cons, Option.some_or]
    rw [List.head?_cons] at hm
    rw [hm, hC]
  have hin : InStep (scanner.after (.code, .code .start) (renderAll pre ++ C) (some z)) (some z) :=
    inStep_after (inStep_start _)
  rw [scanner_after, hcode] at hin ⊢
  exact ⟨_, hin, rfl⟩

/-- An item shows if it can be written so that both loops are out of strings and comments before a letter of it. -/
theorem letter_shows {pre post : List Item} {i : Item} (hplaced : Placed (pre ++ i :: post)) (f : Text → Item)
    (body : Text) {C D : Text} {m : Stripping} (hm : stripper.after .code (renderAll pre) i.render.head? = m)
    (hf : ∀ c, c = 'e' ∨ c = 'E' → (f (body ++ [c])).render = C ++ c :: D ∧
      (Parens.start.after pre).hide i = (Parens.start.after pre).hide (f (body ++ [c])) ∧
      Takes ((f (body ++ [c])).render ++ renderAll post) (f (body ++ [c])) (renderAll post) ∧
      LooksLike (i.render ++ renderAll post) ((f (body ++ [c])).render ++ renderAll post))
    (hne : C ≠ []) (hhead : C.head? = i.render.head?) (hC : stripper.after m C (some 'e') = .code) :
    Shows (pre ++ i :: post) := by
  obtain ⟨q, hq, hstate⟩ := state_behind hne hhead hm hC
  exact shows hplaced (f := fun c => f (body ++ [c])) (by decide) (peekAlike_of_ne (by decide) (by decide)) hf hhead hstate
    fun c hc => letter_written hq hc

theorem str_shows {pre post : List Item} {b : Text} (hplaced : Placed (pre ++ .str b :: post)) {m : Stripping}
    (hm : stripper.after .code (renderAll pre) (some '\'') = m) (hbad : m = .string ∨ m = .line ∨ ∃ star, m = .block star) :
    Shows (pre ++ .str b :: post) := by
  have hi : Takes _ (.str b) (renderAll post) := hplaced.of_append.1
  have hbody (body : Text) (hscan : ∀ c, c = 'e' ∨ c = 'E' →
      scanQuote '\'' (body ++ [c] ++ ['\'']) = some (body ++ [c], [])) (hC : stripper.after m ('\'' :: body) (some 'e') = .code) :
      Shows (pre ++ .str b :: post) :=
    letter_shows hplaced (.str) body (C := '\'' :: body) (D := ['\'']) hm
      (fun c hc => ⟨by simp [Item.render], rfl, hi.str_body (hscan c hc), .of_barrier (by decide) _ _⟩)
      (List.cons_ne_nil _ _) rfl hC
  rcases hbad with rfl | rfl | ⟨star, rfl⟩
  · refine hbody [] ?_ rfl
    rintro c (rfl | rfl)
    · rfl
    · rfl
  · refine hbody ['\n'] ?_ rfl
    rintro c (rfl | rfl)
    · rfl
    · rfl
  · refine hbody ['*', '/'] ?_ (by cases star <;> rfl)
    rintro c (rfl | rfl)
    · rfl
    · rfl

theorem estr_shows {pre post : List Item} {e : Char} {b : Text} (hplaced : Placed (pre ++ .estr e b :: post)) :
    Shows (pre ++ .estr e b :: post) := by
  have hi : Takes _ (.estr e b) (renderAll post) := hplaced.of_append.1
  have he := hi.estr_letter
  generalize hm : stripper.after .code (renderAll pre) (some e) = m
  have hbody (body : Text) (hscan : ∀ c, c = 'e' ∨ c = 'E' →
      scanEscape (body ++ [c] ++ ['\'']) = some (body ++ [c], []))
      (hC : stripper.after m (e :: '\'' :: body) (some 'e') = .code) : Shows (pre ++ .estr e b :: post) := by
    refine letter_shows hplaced (.estr e) body (C := e :: '\'' :: body) (D := ['\'']) hm
      (fun c hc => ⟨by simp [Item.render], rfl, hi.estr_body (hscan c hc), ?_⟩) (List.cons_ne_nil _ _) rfl hC
    exact .of_alike fun p => .cons e (.stop (by decide))
  have hstates : m = .code ∨ m = .string ∨ m = .line ∨ ∃ star, m = .block star := by
    rcases he with rfl | rfl
    · exact stripper_states (by decide) (by decide) hm
    · exact stripper_states (by decide) (by decide) hm
  rcases hstates with rfl | rfl | rfl | ⟨star, rfl⟩
  · refine hbody ['\\', '\''] ?_ (by rcases he with rfl | rfl <;> rfl)
    rintro c (rfl | rfl)
    · rfl
    · rfl
  · refine hbody [] ?_ (by rcases he with rfl | rfl <;> rfl)
    rintro c (rfl | rfl)
    · rfl
    · rfl
  · refine hbody ['\n'] ?_ (by rcases he with rfl | rfl <;> rfl)
    rintro c (rfl | rfl)
    · rfl
    · rfl
  · refine hbody ['*', '/'] ?_ (by rcases he with rfl | rfl <;> cases star <;> rfl)
    rintro c (rfl | rfl)
    · rfl
    · rfl

theorem blockComment_shows {pre post : List Item} {b : Text} (hplaced : Placed (pre ++ .blockComment b :: post)) :
    Shows (pre ++ .blockComment b :: post) := by
  have hi : Takes _ (.blockComment b) (renderAll post) := hplaced.of_append.1
  generalize hm : stripper.after .code (renderAll pre) (some '/') = m
  have hbody (body : Text) (hscan : ∀ c, c = 'e' ∨ c = 'E' →
      scanBlock 0 (body ++ [c] ++ ['*', '/']) = some (body ++ [c], []))
      (hC : stripper.after m ('/' :: '*' :: body) (some 'e') = .code) : Shows (pre ++ .blockComment b :: post) :=
    letter_shows hplaced (.blockComment) body (C := '/' :: '*' :: body) (D := ['*', '/']) hm
      (fun c hc => ⟨by simp [Item.render], rfl, hi.blockComment_body (hscan c hc), .of_barrier (by decide) _ _⟩)
      (List.cons_ne_nil _ _) rfl hC
  rcases stripper_states (by decide) (by decide) hm with rfl | rfl | rfl | ⟨star, rfl⟩
  -- The comment that ends first for `strip_sql_comments` is the one inside.
  · refine hbody ['/', '*', '*', '/'] ?_ rfl
    rintro c (rfl | rfl)
    · rfl
    · rfl
  · refine hbody ['\''] ?_ rfl
    rintro c (rfl | rfl)
    · rfl
    · rfl
  · refine hbody ['\n'] ?_ rfl
    rintro c (rfl | rfl)
    · rfl
    · rfl
  · refine hbody ['/', '*', '*', '/'] ?_ (by cases star <;> rfl)
    rintro c (rfl | rfl)
    · rfl
    · rfl

theorem lineComment_shows {pre post : List Item} {b : Text} (hplaced : Placed (pre ++ .lineComment b :: post))
    {m : Stripping} (hm : stripper.after .code (renderAll pre) (some '-') = m)
    (hbad : m = .string ∨ ∃ star, m = .block star) : Shows (pre ++ .lineComment b :: post) := by
  have hi : Takes _ (.lineComment b) (renderAll post) := hplaced.of_append.1
  have hbody (body : Text) (hline : ∀ c, c = 'e' ∨ c = 'E' → (body ++ [c]).all (!isNewline ·) = true)
      (hC : stripper.after m ('-' :: '-' :: body) (some 'e') = .code) : Shows (pre ++ .lineComment b :: post) :=
    letter_shows hplaced (.lineComment) body (C := '-' :: '-' :: body) (D := []) hm
      (fun c hc => ⟨by simp [Item.render], rfl, hi.lineComment_body (by simpa [or_imp, forall_and] using hline c hc),
        .of_alike fun _ => .dashes⟩)
      (List.cons_ne_nil _ _) rfl hC
  rcases hbad with rfl | ⟨star, rfl⟩
  · refine hbody ['\''] ?_ rfl
    rintro c (rfl | rfl)
    · decide
    · decide
  · refine hbody ['*', '/'] ?_ (by cases star <;> rfl)
    rintro c (rfl | rfl)
    · decide
    · decide

theorem stripper_code_run {u : Text} (hu : ∀ c ∈ u, c ≠ '\'' ∧ c ≠ '-' ∧ c ≠ '/') (p : Option Char) :
    stripper.after .code u p = .code := by
  induction u with
  | nil => rfl
  | cons c u ih =>
    obtain ⟨hquote, hdash, hslash⟩ := hu c (List.mem_cons_self ..)
    simpa [Stripping.step, hquote, hdash, hslash] using ih fun d hd => hu d (List.mem_cons_of_mem _ hd)

theorem dollar_shows {pre post : List Item} {tag b : Text} (hplaced : Placed (pre ++ .dollar tag b :: post)) :
    Shows (pre ++ .dollar tag b :: post) := by
  have hi : Takes _ (.dollar tag b) (renderAll post) := hplaced.of_append.1
  have hchar : ∀ c ∈ '$' :: (tag ++ ['$']), isTagChar c = true ∨ c = '$' := by
    intro c hc
    simp only [List.mem_cons, List.mem_append, List.not_mem_nil, or_false] at hc
    rcases hc with hc | hc | hc
    · exact .inr hc
    · exact .inl (hi.isTagChar_of_mem c hc)
    · exact .inr hc
  have hnot {d : Char} (htag : isTagChar d = false) (hd : d ≠ '$') : d ∉ '$' :: (tag ++ ['$']) := by
    intro hmem
    rcases hchar d hmem with h | h
    · rw [htag] at h
      cases h
    · exact hd h
  have hquote := hnot (d := '\'') (by decide) (by decide)
  have hline := hnot (d := '\n') (by decide) (by decide)
  have hdash := hnot (d := '-') (by decide) (by decide)
  have hslash := hnot (d := '/') (by decide) (by decide)
  have hstar := hnot (d := '*') (by decide) (by decide)
  generalize hm : stripper.after .code (renderAll pre) (some '$') = m
  have hbody (body : Text) {m' : Stripping} (hdollar : '$' ∉ body)
      (hrun : ∀ p, stripper.after m ('$' :: (tag ++ ['$'])) p = m')
      (hC : stripper.after m' body (some 'e') = .code) : Shows (pre ++ .dollar tag b :: post) := by
    refine letter_shows hplaced (.dollar tag) body (C := '$' :: (tag ++ ['$']) ++ body)
      (D := '$' :: (tag ++ ['$'])) hm (fun c hc => ⟨by simp [Item.render], rfl, hi.dollar_body ?_, .of_barrier (by decide) _ _⟩)
      (List.cons_ne_nil _ _) rfl ?_
    · rcases hc with rfl | rfl
      · simpa using hdollar
      · simpa using hdollar
    · rw [Scanner.after_append, hrun, hC]
  rcases stripper_states (by decide) (by decide) hm with rfl | rfl | rfl | ⟨star, rfl⟩
  · refine hbody [] (by decide) (fun p => stripper_code_run (fun c hc => ⟨?_, ?_, ?_⟩) p) rfl
    · rintro rfl
      exact hquote hc
    · rintro rfl
      exact hdash hc
    · rintro rfl
      exact hslash hc
  · exact hbody ['\''] (by decide) (fun p => (stripper_string_run hquote p).1) rfl
  · exact hbody ['\n'] (by decide) (fun p => (stripper_line_run hline p).1) rfl
  · refine hbody ['*', '/'] (by decide)
      (fun p => (stripper_block_run (fun c hc => ⟨?_, ?_⟩) (List.cons_ne_nil _ _) star p).1) rfl
    · rintro rfl
      exact hstar hc
    · rintro rfl
      exact hslash hc

/-- Behind an underscore a digit goes on with the identifier. -/
theorem digit_written {q : Redacting} (hq : q.inString = false) {c : Char} (hc : c = '0' ∨ c = '1') (p : Option Char) :
    (Stripping.code.out c p, ((q.read '_').1.read c).2) = ([c], [c]) := by
  have hround (s : Reading) : ∃ s' : Reading, (s.round '_').1 = .code s' ∧ s'.prevIdent = true :=
    ⟨s.other '_', by simp [Reading.round], by simp [Reading.other]⟩
  have hread : ∃ s' : Reading, (q.read '_').1 = .code s' ∧ s'.prevIdent = true := by
    cases q with
    | code s => exact hround s
    | number s => exact hround _
    | string s => cases hq
    | quote s => exact hround _
  obtain ⟨s, hs, hprev⟩ := hread
  rw [hs]
  rcases hc with rfl | rfl
  · simp [Stripping.out, Redacting.read, Reading.round, hprev]
  · simp [Stripping.out, Redacting.read, Reading.round, hprev]

/-- The digits behind an underscore of a number show where no loop is in a string or in a comment. -/
theorem number_shows {pre post : List Item} {n : Text} (hplaced : Placed (pre ++ .number n :: post))
    (hm : stripper.after .code (renderAll pre) n.head? = .code) (htype : (Parens.start.after pre).inType = false) :
    Shows (pre ++ .number n :: post) := by
  have hi : Takes _ (.number n) (renderAll post) := hplaced.of_append.1
  have hhide (n' : Text) : (Parens.start.after pre).hide (.number n) = (Parens.start.after pre).hide (.number n') := by
    simp [Parens.hide, htype]
  -- `C` is the number up to its first digit.
  have hbody {C D : Text} (hne : C ≠ []) (hhead : C.head? = n.head?) (hplain : ∀ c ∈ C, c ≠ '\'' ∧ c ≠ '-' ∧ c ≠ '/')
      (hf : ∀ c : Char, c.isDigit → Takes (C ++ '_' :: c :: D ++ renderAll post) (.number (C ++ '_' :: c :: D)) (renderAll post))
      (hlike : ∀ x, LooksLike (n ++ renderAll post) (C ++ x)) : Shows (pre ++ .number n :: post) := by
    obtain ⟨q, hq, hstate⟩ := state_behind (z := '_') hne hhead hm (stripper_code_run hplain _)
    have hstate' : scanner.after (.code, .code .start) (renderAll pre ++ (C ++ ['_'])) (some '0') =
        (.code, (q.read '_').1) := by
      rw [← List.append_assoc, Scanner.after_append, List.head?_cons, Option.some_or, hstate]
      rfl
    refine shows hplaced (f := fun c => .number (C ++ '_' :: c :: D)) (C := C ++ ['_']) (D := D) (by decide)
      (peekAlike_of_ne (by decide) (by decide)) (fun c hc => ⟨by simp [Item.render], hhide _, ?_, ?_⟩) ?_ hstate'
      fun c hc => digit_written hq hc
    · refine hf c ?_
      rcases hc with rfl | rfl
      · rfl
      · rfl
    · have happend : (Item.number (C ++ '_' :: c :: D)).render ++ renderAll post = C ++ ('_' :: c :: (D ++ renderAll post)) := by
        simp [Item.render]
      rw [happend]
      exact hlike _
    · obtain ⟨d, C, rfl⟩ := List.exists_cons_of_ne_nil hne
      exact hhead
  have hdigit {d : Char} (hd : d.isDigit) : d ≠ '\'' ∧ d ≠ '-' ∧ d ≠ '/' := by
    refine ⟨?_, ?_, ?_⟩
    all_goals
      rintro rfl
      exact absurd hd (by decide)
  rcases hi.number_start with ⟨d, D, rfl, hd⟩ | ⟨d, D, rfl, hd⟩
  · refine hbody (C := [d]) (D := D) (List.cons_ne_nil _ _) rfl ?_ (fun c hc => hi.number_digit hd hc) fun x p hp => ?_
    · simpa using hdigit hd
    · cases p with
      | false => exact .digit hd
      | true =>
        have hnot : Char.isDigit d = false := hp rfl
        rw [hd] at hnot
        cases hnot
  · refine hbody (C := ['.', d]) (D := D) (List.cons_ne_nil _ _) rfl ?_ (fun c hc => hi.number_point hd hc)
      fun x => .of_barrier (by decide) _ _
    simpa using hdigit hd

/-! ### Noninterference -/

/-- An item whose contents show, where those of the items before do not matter. -/
theorem exists_of_not_covered {m : Stripping} {p : Parens} {is : List Item} (h : covered m p is = false) :
    ∃ pre i post, is = pre ++ i :: post ∧
      hides (stripper.after m (renderAll pre) (renderAll (i :: post)).head?) (p.after pre).inType i = false := by
  induction is generalizing m p with
  | nil => cases h
  | cons i is ih =>
    rw [covered, Bool.and_eq_false_iff] at h
    rcases h with h | h
    · exact ⟨[], i, is, rfl, h⟩
    · obtain ⟨pre, j, post, rfl, hj⟩ := ih h
      refine ⟨i :: pre, j, post, rfl, ?_⟩
      rw [renderAll_cons, Scanner.after_append]
      rw [renderAll_append, List.head?_append] at hj
      exact hj

theorem shows_of_not_covered {is : List Item} (his : Placed is) (h : covered .code .start is = false) : Shows is := by
  obtain ⟨pre, i, post, rfl, hi⟩ := exists_of_not_covered h
  have htakes : Takes (i.render ++ renderAll post) i (renderAll post) := his.of_append.1
  rw [renderAll_cons, List.head?_append_of_ne_nil _ htakes.render_ne_nil] at hi
  generalize hm : stripper.after .code (renderAll pre) i.render.head? = m at hi
  cases i with
  | str b =>
    refine str_shows his hm ?_
    cases m with
    | opening =>
      have hin : InStep (scanner.after (.code, .code .start) (renderAll pre) (some '\'')) (some '\'') :=
        inStep_after (inStep_start _)
      rw [scanner_after, show stripper.after .code (renderAll pre) (some '\'') = _ from hm] at hin
      exact absurd (Option.some.inj hin.2) (by decide)
    | code | pair => cases hi
    | string => exact .inl rfl
    | line => exact .inr (.inl rfl)
    | block star => exact .inr (.inr ⟨star, rfl⟩)
  | estr e b => exact estr_shows his
  | dollar tag b => exact dollar_shows his
  | blockComment b => exact blockComment_shows his
  | lineComment b =>
    refine lineComment_shows his hm ?_
    rcases stripper_states (by decide) (by decide) hm with rfl | rfl | rfl | ⟨star, rfl⟩
    · cases hi
    · exact .inl rfl
    · cases hi
    · exact .inr ⟨star, rfl⟩
  | number n =>
    obtain ⟨c, u, rfl, hc⟩ := number_head htakes
    have hne : c ≠ '\'' ∧ c ≠ '*' := by
      rcases hc with hc | rfl
      · refine ⟨?_, ?_⟩
        all_goals
          rintro rfl
          exact absurd hc (by decide)
      · decide
    simp only [hides, Bool.decide_or, Bool.or_eq_false_iff, decide_eq_false_iff_not] at hi
    obtain ⟨htype, hstring, hline, hblock, hstar⟩ := hi
    rcases stripper_states hne.1 hne.2 hm with rfl | rfl | rfl | ⟨star, rfl⟩
    · exact number_shows his hm (by simpa using htype)
    · exact absurd rfl hstring
    · exact absurd rfl hline
    · cases star with
      | false => exact absurd rfl hblock
      | true => exact absurd rfl hstar
  | space | quoted | word | punct => cases hi

/-- **Redaction hides what is in literals and comments** of a text exactly if their contents show nowhere: every string
starts where `strip_sql_comments` is in its outer loop, every line comment starts there or in a line comment, every
number in a string or a comment or in the parentheses of a type, and there is no other literal or comment. -/
theorem redaction_hides_iff {t : Text} {is : List Item} (h : Lexes t is) :
    (∀ t' js, Lexes t' js → Parens.start.shape js = Parens.start.shape is → redactSql t' = redactSql t) ↔
      covered .code .start is := by
  obtain ⟨rfl, his⟩ := lexes_iff_placed.1 h
  constructor
  · intro hsame
    by_contra hnot
    obtain ⟨js, hjs, hshape, hdiffer⟩ := shows_of_not_covered his (by simpa using hnot)
    exact hdiffer (hsame _ js hjs.lexes hshape)
  · intro hcov t' js hjs hshape
    obtain ⟨rfl, hplaced⟩ := lexes_iff_placed.1 hjs
    rw [redactSql_eq, redactSql_eq]
    exact (run_eq_of_covered his hplaced hshape.symm hcov (inStep_start _)).symm

/-- A string behind a word is hidden. -/
theorem string_hidden :
    ((∀ t' js, Lexes t' js → Parens.start.shape js = Parens.start.shape [.word "SELECT".toList, .space ' ', .str "a".toList] →
        redactSql t' = redactSql "SELECT 'a'".toList) ↔
      covered .code .start [.word "SELECT".toList, .space ' ', .str "a".toList]) ∧
    covered .code .start [.word "SELECT".toList, .space ' ', .str "a".toList] = true :=
  ⟨redaction_hides_iff (lex_eq_some.1 (by decide +kernel)), by decide⟩

/-- A quote in a quoted identifier turns strings and what is between them around. -/
theorem quote_in_identifier_leaks :
    ∃ t t' is js, Lexes t is ∧ Lexes t' js ∧ Parens.start.shape is = Parens.start.shape js ∧ redactSql t ≠ redactSql t' := by
  refine ⟨"\"it's\"='hunter2'".toList, "\"it's\"='hunter3'".toList,
    [.quoted "it's".toList, .punct '=', .str "hunter2".toList], [.quoted "it's".toList, .punct '=', .str "hunter3".toList],
    lex_eq_some.1 (by decide +kernel), lex_eq_some.1 (by decide +kernel), by decide, ?_⟩
  rw [redactSql_eq, redactSql_eq]
  decide

end Latiq.AgentCore
