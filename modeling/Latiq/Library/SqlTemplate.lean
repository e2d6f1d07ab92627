import Latiq.Library.SqlLex
import Mathlib.Data.List.Chain

/-!
# SQL texts from templates

A program writes a SQL text from pieces: words and symbols of its own, and values between quotes, in which the quotes are
doubled. Such a text lexes to its pieces, whatever the values are, where no two pieces run into each other.

* `Piece`, `text` — the pieces, and what they are written as.
* `lexes_text` — the lexer gives them back.
* `mapM_piece?` — and each of them says what it was written from.
-/

namespace SqlLex

/-- A piece of a text. -/
inductive Piece where
  | word (w : Text)
  | space
  | sym (c : Char)
  /-- A value, as a string. -/
  | lit (v : Text)
  /-- A value, as an identifier. -/
  | ident (v : Text)
  deriving DecidableEq, Repr

namespace Piece

/-- A piece, as it is lexed. -/
def item : Piece → Item
  | word w => .word w
  | space => .space ' '
  | sym c => .punct c
  | lit v => .str (double '\'' v)
  | ident v => .quoted (double '"' v)

/-- The text of some pieces. -/
def text (ps : List Piece) : Text := renderAll (ps.map item)

/-- The symbols, which are tokens whatever is behind them. -/
def symbols : List Char := ['(', ')', ',', '.', '*', '=', '>']

/-- Words are words, and symbols are symbols. -/
def Valid : Piece → Prop
  | word w => startsWith isWordStart w = true ∧ w.all isWordChar = true
  | sym c => c ∈ symbols
  | _ => True

instance : DecidablePred Valid
  | word w => inferInstanceAs (Decidable (startsWith isWordStart w = true ∧ w.all isWordChar = true))
  | sym c => inferInstanceAs (Decidable (c ∈ symbols))
  | space | lit _ | ident _ => .isTrue trivial

/-- Pieces that do not run into each other. -/
def apart : Piece → Piece → Bool
  | word _, word _ => false
  | word _, lit _ => false
  | lit _, lit _ => false
  | ident _, ident _ => false
  | _, _ => true

/-- No two pieces run into each other. -/
def Apart (ps : List Piece) : Prop := ps.IsChain fun p q => p.apart q = true

/-- The piece is not between tokens, but one. -/
def isToken : Piece → Bool
  | space => false
  | _ => true

end Piece

open Piece

/-- The piece that a token was written from. -/
def Item.piece? : Item → Option Piece
  | .word w => some (.word w)
  | .punct c => some (.sym c)
  | .str b => some (.lit (undouble '\'' b))
  | .quoted b => some (.ident (undouble '"' b))
  | _ => none

namespace Piece

@[simp] theorem text_nil : text [] = [] := rfl

theorem text_cons (p : Piece) (ps : List Piece) : text (p :: ps) = p.item.render ++ text ps := rfl

theorem text_append (ps qs : List Piece) : text (ps ++ qs) = text ps ++ text qs := by
  rw [text, List.map_append, renderAll_append]
  rfl

@[simp] theorem apart_sym (p : Piece) (c : Char) : p.apart (.sym c) = true := by
  cases p <;> rfl

@[simp] theorem space_apart (p : Piece) : space.apart p = true := by
  cases p <;> rfl

@[simp] theorem apart_space (p : Piece) : p.apart .space = true := by
  cases p <;> rfl

@[simp] theorem sym_apart (c : Char) (p : Piece) : (sym c).apart p = true := by
  cases p <;> rfl

theorem apart_append {ps qs : List Piece} {q : Piece} (hps : Apart ps) (hqs : Apart (q :: qs))
    (hq : ∀ p : Piece, p.apart q = true) : Apart (ps ++ q :: qs) := by
  refine List.isChain_append.2 ⟨hps, hqs, ?_⟩
  rintro p - _ ⟨⟩
  exact hq p

theorem apart_cons {p : Piece} {ps : List Piece} (hp : ∀ q : Piece, p.apart q = true) (hps : Apart ps) : Apart (p :: ps) := by
  cases ps with
  | nil => exact .singleton p
  | cons q ps => exact List.isChain_cons_cons.2 ⟨hp q, hps⟩

/-- A word and a space. -/
theorem apart_word (w : Text) {ps : List Piece} (hps : Apart ps) : Apart (word w :: space :: ps) :=
  List.isChain_cons_cons.2 ⟨rfl, apart_cons space_apart hps⟩

/-! ### What is written is lexed -/

/-- What a piece starts with. -/
def starts (f : Char → Bool) : Piece → Bool
  | word w => startsWith f w
  | space => f ' '
  | sym c => f c
  | lit _ => f '\''
  | ident _ => f '"'

theorem startsWith_text {f : Char → Bool} {p : Piece} {ps : List Piece} (hp : p.Valid) :
    startsWith f (text (p :: ps)) = p.starts f := by
  cases p with
  | word w =>
    cases w with
    | nil => cases hp.1
    | cons c w => rfl
  | _ => rfl

/-- What is behind a piece does not start so, where no piece that may be there does. -/
theorem startsWith_behind {f : Char → Bool} {p : Piece} {ps : List Piece} (hv : ∀ q ∈ ps, q.Valid)
    (h : Apart (p :: ps)) (hf : ∀ q : Piece, q.Valid → p.apart q = true → q.starts f = false) :
    startsWith f (text ps) = false := by
  cases ps with
  | nil => rfl
  | cons q ps =>
    rw [startsWith_text (hv q List.mem_cons_self)]
    exact hf q (hv q List.mem_cons_self) (List.isChain_cons_cons.1 h).1

theorem symbols_all {f : Char → Bool} (h : symbols.all f = true) {c : Char} (hc : c ∈ symbols) : f c = true :=
  List.all_eq_true.1 h c hc

theorem not_symbols (f : Char → Bool) (h : symbols.all (fun c => !f c) = true) {c : Char} (hc : c ∈ symbols) :
    f c = false := by
  simpa using symbols_all h hc

/-- What no word starts with. -/
theorem startsWith_word {f : Char → Bool} (hf : ∀ c, isWordStart c = true → f c = false) {w : Text}
    (hw : startsWith isWordStart w = true) : startsWith f w = false := by
  obtain ⟨c, w, rfl, hc⟩ := exists_of_startsWith hw
  exact hf c hc

/-- No piece starts with a digit. -/
theorem starts_isDigit {q : Piece} (hq : q.Valid) : q.starts Char.isDigit = false := by
  cases q with
  | word w =>
    refine startsWith_word (fun c hc => Bool.eq_false_iff.2 fun hdigit => ?_) hq.1
    rw [isDigit_not_isWordStart hdigit] at hc
    cases hc
  | sym c => exact not_symbols Char.isDigit (by decide) hq
  | _ => rfl

theorem isWordStart_ne_quote {c : Char} (hc : isWordStart c = true) : (c == '\'') = false ∧ (c == '"') = false := by
  constructor
  · refine beq_false_of_ne ?_
    rintro rfl
    revert hc
    decide
  · refine beq_false_of_ne ?_
    rintro rfl
    revert hc
    decide

/-- A symbol is a token, whatever is behind it. -/
theorem takes_sym {c : Char} (hc : c ∈ symbols) {r : Text} (hr : startsWith Char.isDigit r = false) :
    Takes (c :: r) (.punct c) r := by
  have hkind := symbols_all (f := fun c => !isSpace c && !isWordStart c && c != '\'' && c != '"' && !c.isDigit && c != '-' &&
    c != '/' && c != '$') (by decide) hc
  simp only [Bool.and_eq_true, Bool.not_eq_true', bne_iff_ne] at hkind
  obtain ⟨⟨⟨⟨⟨⟨⟨hspace, hword⟩, hquote⟩, hident⟩, hdigit⟩, hdash⟩, hslash⟩, hdollar⟩ := hkind
  exact .punct hspace hword hquote hident (by simp [startsNumber, hdigit, hr]) (fun h => hdash h.1) (fun h => hslash h.1)
    fun h => hdollar h.1

/-- **A text of pieces lexes to them.** -/
theorem lexes_text {ps : List Piece} (hv : ∀ p ∈ ps, p.Valid) (h : Apart ps) : Lexes (text ps) (ps.map item) := by
  induction ps with
  | nil => exact .nil
  | cons p ps ih =>
    have hp := hv p List.mem_cons_self
    have hvs : ∀ q ∈ ps, q.Valid := fun q hq => hv q (List.mem_cons_of_mem p hq)
    have hrest := ih hvs h.tail
    cases p with
    | word w =>
      refine Lexes.word hp.1 hp.2 (startsWith_behind hvs h fun q hq hap => ?_)
        (startsWith_behind hvs h fun q hq hap => ?_) hrest
      · cases q with
        | word w | lit v => cases hap
        | sym c => exact not_symbols isWordChar (by decide) hq
        | space | ident v => rfl
      · cases q with
        | word w | lit v => cases hap
        | sym c => exact not_symbols (· == '\'') (by decide) hq
        | space | ident v => rfl
    | space => exact .cons (.space rfl) hrest
    | sym c => exact .cons (takes_sym hp (startsWith_behind hvs h fun q hq _ => starts_isDigit hq)) hrest
    | lit v =>
      have hbehind : startsWith (· == '\'') (text ps) = false := by
        refine startsWith_behind hvs h fun q hq hap => ?_
        cases q with
        | word w => exact startsWith_word (fun c hc => (isWordStart_ne_quote hc).1) hq.1
        | sym c => exact not_symbols (· == '\'') (by decide) hq
        | lit v => cases hap
        | space | ident v => rfl
      refine .cons (r := text ps) ?_ hrest
      simpa [item, Item.render, text_cons] using Takes.str (scanQuote_double '\'' v hbehind)
    | ident v =>
      have hbehind : startsWith (· == '"') (text ps) = false := by
        refine startsWith_behind hvs h fun q hq hap => ?_
        cases q with
        | word w => exact startsWith_word (fun c hc => (isWordStart_ne_quote hc).2) hq.1
        | sym c => exact not_symbols (· == '"') (by decide) hq
        | ident v => cases hap
        | space | lit v => rfl
      refine .cons (r := text ps) ?_ hrest
      simpa [item, Item.render, text_cons] using Takes.quoted (scanQuote_double '"' v hbehind)

theorem piece?_item {p : Piece} (hp : p.isToken = true) : p.item.piece? = some p ∧ p.item.isGap = false := by
  cases p with
  | space => cases hp
  | word w => exact ⟨rfl, rfl⟩
  | sym c => exact ⟨rfl, rfl⟩
  | lit v => exact ⟨congrArg (fun v => some (lit v)) (undouble_double '\'' v), rfl⟩
  | ident v => exact ⟨congrArg (fun v => some (ident v)) (undouble_double '"' v), rfl⟩

/-- Tokens say what they were written from. -/
theorem mapM_item {ps : List Piece} (h : ps.all isToken = true) : (ps.map item).mapM Item.piece? = some ps := by
  induction ps with
  | nil => rfl
  | cons p ps ih =>
    obtain ⟨hp, hps⟩ := Bool.and_eq_true_iff.1 h
    rw [List.map_cons, List.mapM_cons, (piece?_item hp).1, ih hps]
    rfl

/-- The tokens of a text say what they were written from. -/
theorem mapM_piece? (ps : List Piece) :
    ((ps.map item).filter fun i => !i.isGap).mapM Item.piece? = some (ps.filter isToken) := by
  induction ps with
  | nil => rfl
  | cons p ps ih =>
    by_cases hp : p.isToken = true
    · obtain ⟨hpiece, hgap⟩ := piece?_item hp
      rw [List.map_cons, List.filter_cons_of_pos (by rw [hgap]; rfl), List.mapM_cons, hpiece, ih,
        List.filter_cons_of_pos hp]
      rfl
    · cases p with
      | space => exact ih
      | _ => exact absurd rfl hp

end Piece

end SqlLex
