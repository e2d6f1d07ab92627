import Latiq.EngineDuckdb.Bracket

/-!
# The class a message starts with

A message of DuckDB starts with its class and a colon. What is behind the colon is arbitrary: it quotes the statement and
its data, over as many lines as these have.

## What is proved

* `kind_eq_iff` — an error is filed by the class its message starts with exactly where this class is keyed on, or no line
  of the rest starts with one that is.
* `cancelled_only_iff` — `run_with_abort` reports `Cancelled` only of a cancelled operation exactly where it was
  cancelled, or the message that is filed nowhere does not have the word `INTERRUPT` in it.
* `classified_iff` — the two together.
-/

namespace Latiq.EngineDuckdb

open RustStr
open Unwind

namespace Errclass

/-- A class at the head of a message: a word or more, in one line. -/
structure Header where
  cls : Text
  no_colon : ':' ∉ cls
  no_lf : '\n' ∉ cls
  no_cr : '\r' ∉ cls
  starts : ∃ c ∈ cls.head?, isWhitespace c = false

/-- A message with this class. -/
def Header.message (h : Header) (payload : Text) : Text := h.cls ++ ':' :: payload

/-- The class, if it is one that is keyed on. -/
def Header.known (h : Header) : Option Class := classes.find? fun c => eqIgnoreAsciiCase h.cls c.text

/-- The variants of `EngineError`. -/
inductive Kind where
  | parse | catalog | conversion | constraint | sourceIo | unsupported | capabilityUnavailable | invalidInput
  | missingParameter | unsupportedParameter | transactionControl | readOnlyViolation | cancelled | timeout | engine
  deriving DecidableEq, Repr

/-- How an error is filed. -/
def kind : EngineError → Kind
  | .parse _ => .parse
  | .catalog _ => .catalog
  | .conversion _ => .conversion
  | .constraint _ => .constraint
  | .sourceIo _ => .sourceIo
  | .unsupported _ _ => .unsupported
  | .capabilityUnavailable _ _ => .capabilityUnavailable
  | .invalidInput _ => .invalidInput
  | .missingParameter _ => .missingParameter
  | .unsupportedParameter _ => .unsupportedParameter
  | .transactionControl _ => .transactionControl
  | .readOnlyViolation => .readOnlyViolation
  | .cancelled => .cancelled
  | .timeout => .timeout
  | .engine _ => .engine

/-- How the errors of a class are filed; those of a class that is not keyed on are the engine's own. -/
def kindOf : Option Class → Kind
  | some .parser | some .syntax_ => .parse
  | some .catalog | some .binder => .catalog
  | some .conversion => .conversion
  | some .constraint => .constraint
  | some .io | some .http => .sourceIo
  | some .notImplemented => .unsupported
  | some .invalidInput | some .outOfRange => .invalidInput
  | some .transaction => .transactionControl
  | none => .engine

theorem kind_classifyMessage (msg : Text) : kind (classifyMessage msg) = kindOf (classOf (classLine (trim msg))) := by
  unfold classifyMessage
  dsimp only
  rcases classOf (classLine (trim msg)) with _ | c
  · rfl
  · cases c <;> rfl

theorem kindOf_eq_engine {o : Option Class} : kindOf o = .engine ↔ o = none := by
  rcases o with _ | c
  · exact ⟨fun _ => rfl, fun _ => rfl⟩
  · cases c <;> exact ⟨nofun, nofun⟩

/-- A line behind the first starts with a class that is keyed on. -/
def ShowsClass (msg : Text) : Prop := ∃ l ∈ (lines (trim msg)).tail, (classOf (trim l)).isSome

instance (msg : Text) : Decidable (ShowsClass msg) := inferInstanceAs (Decidable (∃ l ∈ _, _))

/-! ### The first line -/

/-- No class has a colon in it, in any case of its letters. -/
theorem colon_not_mem_class (c : Class) : ':' ∉ c.text.map Char.toLower := by
  cases c <;> decide

/-- A class is read off a text exactly where it is what the text has before its first colon. -/
theorem isClassPrefix_message {cls : Text} (h : ':' ∉ cls) (rest : Text) (c : Class) :
    isClassPrefix (cls ++ ':' :: rest) c.text = eqIgnoreAsciiCase cls c.text := by
  rw [Bool.eq_iff_iff, isClassPrefix, Bool.and_eq_true, eqIgnoreAsciiCase, eqIgnoreAsciiCase, beq_iff_eq, beq_iff_eq,
    beq_iff_eq]
  constructor
  · rintro ⟨htake, hhead⟩
    have hcolon : ':' ∉ (cls ++ ':' :: rest).take c.text.length := fun hmem =>
      colon_not_mem_class c (htake ▸ List.mem_map.2 ⟨':', hmem, rfl⟩)
    have hlen : c.text.length = cls.length := by
      rcases Nat.lt_trichotomy c.text.length cls.length with hlt | heq | hgt
      · rw [List.head?_drop, List.getElem?_append_left hlt] at hhead
        exact absurd (List.mem_of_getElem? hhead) h
      · exact heq
      · refine absurd (List.mem_take_iff_getElem.2 ⟨cls.length, ?_, ?_⟩) hcolon
        · simp only [List.length_append, List.length_cons]
          omega
        · simp
    rwa [hlen, List.take_left] at htake
  · intro heq
    have hlen : c.text.length = cls.length := by
      have hlens := congrArg List.length heq
      rw [List.length_map, List.length_map] at hlens
      exact hlens.symm
    rw [hlen, List.take_left, List.drop_left]
    exact ⟨heq, rfl⟩

theorem Header.classOf_message (h : Header) (rest : Text) : classOf (h.cls ++ ':' :: rest) = h.known := by
  unfold classOf known
  congr 1
  funext c
  exact isClassPrefix_message h.no_colon rest c

/-- The first line of a text goes on from where the text does. -/
theorem lines_append_cons {t : Text} (hn : '\n' ∉ t) (hr : '\r' ∉ t) (r : Text) :
    ∃ l, lines (t ++ ':' :: r) = (t ++ ':' :: l) :: (lines (':' :: r)).tail := by
  induction t with
  | nil =>
    rw [List.nil_append, lines, if_neg (by decide), if_neg fun h => absurd h.1 (by decide)]
    cases lines r with
    | nil => exact ⟨[], rfl⟩
    | cons l ls => exact ⟨l, rfl⟩
  | cons c t ih =>
    obtain ⟨l, hl⟩ := ih (fun h => hn (List.mem_cons_of_mem _ h)) fun h => hr (List.mem_cons_of_mem _ h)
    have hc : c ≠ '\n' := fun h => hn (h ▸ List.mem_cons_self)
    have hcr : c ≠ '\r' := fun h => hr (h ▸ List.mem_cons_self)
    exact ⟨l, by rw [List.cons_append, lines, if_neg hc, if_neg fun h => hcr h.1, hl]; rfl⟩

/-- The space at the end of a text is behind its last other character. -/
theorem trimEnd_append_cons {t rest : Text} {c : Char} (h : isWhitespace c = false) :
    trimEnd (t ++ c :: rest) = t ++ c :: trimEnd rest := by
  have hc : ¬isWhitespace c := by
    rw [h]
    exact Bool.false_ne_true
  induction rest using List.reverseRecOn with
  | nil => exact List.rdropWhile_concat_neg _ _ _ hc
  | append_singleton rest x ih =>
    have hassoc : t ++ c :: (rest ++ [x]) = (t ++ c :: rest) ++ [x] := by rw [List.append_assoc, List.cons_append]
    unfold trimEnd at ih ⊢
    rw [hassoc]
    by_cases hx : isWhitespace x
    · rw [List.rdropWhile_concat_pos _ _ _ hx, List.rdropWhile_concat_pos _ _ _ hx, ih]
    · rw [List.rdropWhile_concat_neg _ _ _ hx, List.rdropWhile_concat_neg _ _ _ hx, ← hassoc]

/-- Neither end of a class, nor its colon, is taken off with the space around a text. -/
theorem Header.trim_message (h : Header) (rest : Text) : ∃ q, trim (h.cls ++ ':' :: rest) = h.cls ++ ':' :: q := by
  obtain ⟨c, hc, hspace⟩ := h.starts
  refine ⟨trimEnd rest, ?_⟩
  have hstart : trimStart (h.cls ++ ':' :: rest) = h.cls ++ ':' :: rest := by
    cases hcls : h.cls with
    | nil =>
      rw [hcls] at hc
      cases hc
    | cons d ds =>
      rw [hcls] at hc
      cases hc
      exact List.dropWhile_cons_of_neg (by rw [hspace]; exact Bool.false_ne_true)
  rw [trim, hstart]
  exact trimEnd_append_cons rfl

/-- The first line of a message starts with the message's class. -/
theorem Header.lines_message (h : Header) (payload : Text) :
    ∃ l ls, lines (trim (h.message payload)) = l :: ls ∧ classOf (trim l) = h.known ∧
      classOf (trim (h.message payload)) = h.known := by
  obtain ⟨q, hq⟩ := h.trim_message payload
  obtain ⟨l, hl⟩ := lines_append_cons h.no_lf h.no_cr q
  obtain ⟨q', hq'⟩ := h.trim_message l
  refine ⟨h.cls ++ ':' :: l, (lines (':' :: q)).tail, ?_, ?_, ?_⟩
  · rw [message, hq, hl]
  · rw [hq', h.classOf_message]
  · rw [message, hq, h.classOf_message]

/-- **The class of an error** is that of its message's start exactly where this class is keyed on, or no line behind the
first shows one that is. -/
theorem kind_eq_iff (h : Header) (payload : Text) :
    kind (classifyMessage (h.message payload)) = kindOf h.known ↔ h.known.isSome ∨ ¬ShowsClass (h.message payload) := by
  obtain ⟨l, ls, hlines, hfirst, hwhole⟩ := h.lines_message payload
  rw [kind_classifyMessage, ShowsClass, classLine, hlines, List.tail_cons]
  cases hknown : h.known with
  | some c =>
    have hfound : (l :: ls).find? (fun l => (classOf (trim l)).isSome) = some l :=
      List.find?_cons_of_pos (by rw [hfirst, hknown]; rfl)
    rw [hfound]
    exact ⟨fun _ => .inl rfl, fun _ => by rw [Option.map_some, Option.getD_some, hfirst, hknown]⟩
  | none =>
    have hskip : (l :: ls).find? (fun l => (classOf (trim l)).isSome) = ls.find? fun l => (classOf (trim l)).isSome :=
      List.find?_cons_of_neg (by rw [hfirst, hknown]; exact Bool.false_ne_true)
    have hengine : kindOf none = .engine := rfl
    rw [hskip, hengine, kindOf_eq_engine]
    cases hfind : ls.find? fun l => (classOf (trim l)).isSome with
    | none =>
      rw [Option.map_none, Option.getD_none, hwhole, hknown]
      refine ⟨fun _ => .inr ?_, fun _ => rfl⟩
      rintro ⟨l', hl', hsome⟩
      exact List.find?_eq_none.1 hfind l' hl' hsome
    | some l' =>
      have hsome := List.find?_some hfind
      rw [Option.map_some, Option.getD_some]
      constructor
      · intro hnone
        rw [hnone] at hsome
        cases hsome
      · rintro (hno | hno)
        · cases hno
        · exact absurd ⟨l', List.mem_of_find?_eq_some hfind, hsome⟩ hno

/-! ### Cancellation -/

/-- A text that `run_with_abort` takes for an interrupt. -/
def SaysInterrupt (m : Text) : Prop := contains (toUppercase m) "INTERRUPT".toList = true

instance (m : Text) : Decidable (SaysInterrupt m) := inferInstanceAs (Decidable (_ = true))

theorem normalizeInterrupt_engine {m : Text} : normalizeInterrupt (.engine m) = .cancelled ↔ SaysInterrupt m := by
  rw [normalizeInterrupt, SaysInterrupt]
  split_ifs with h
  · exact ⟨fun _ => h, fun _ => rfl⟩
  · exact ⟨nofun, fun h' => absurd h' h⟩

/-- An error that is filed by its message becomes a cancellation where the message is filed nowhere and says so. -/
theorem normalizeInterrupt_classifyMessage {msg : Text} :
    normalizeInterrupt (classifyMessage msg) = .cancelled ↔
      kind (classifyMessage msg) = .engine ∧ SaysInterrupt (trim msg) := by
  have hengine := @classifyMessage_eq_engine msg
  cases h : classifyMessage msg with
  | engine m =>
    obtain ⟨-, rfl⟩ := hengine.1 h
    rw [normalizeInterrupt_engine]
    exact ⟨fun hm => ⟨rfl, hm⟩, fun hm => hm.2⟩
  | cancelled => exact absurd h (classifyMessage_ne_cancelled msg)
  | _ => exact ⟨nofun, fun hm => nomatch hm.1⟩

/-- A message is filed nowhere where no line of it shows a class that is keyed on. -/
theorem kind_eq_engine_iff (h : Header) (payload : Text) :
    kind (classifyMessage (h.message payload)) = .engine ↔ h.known = none ∧ ¬ShowsClass (h.message payload) := by
  have hkind := kind_eq_iff h payload
  cases hknown : h.known with
  | none =>
    have hengine : kindOf none = .engine := rfl
    rw [hknown, hengine] at hkind
    rw [hkind]
    exact ⟨fun hor => ⟨rfl, hor.resolve_left nofun⟩, fun hand => .inr hand.2⟩
  | some c =>
    rw [hknown] at hkind
    rw [hkind.2 (.inl rfl), kindOf_eq_engine]
    exact ⟨nofun, nofun⟩

/-- `run_with_abort` reports what it makes of the error of the operation. -/
theorem runWithAbort_err {α : Type} {f : Act Duck EngineError α} {s : Duck} {e : EngineError}
    (h : (f (s.arm true)).1 = .err e) : (runWithAbort f s).1 = .err .cancelled ↔ normalizeInterrupt e = .cancelled := by
  rw [runWithAbort_apply, h]
  exact ⟨fun heq => Ended.err.inj heq, congrArg Ended.err⟩

theorem imp_iff_or_not {p : Prop} {b : Bool} : (p → b = true) ↔ b = true ∨ ¬p := by
  cases b with
  | true => exact ⟨fun _ => .inl rfl, fun _ _ => rfl⟩
  | false => exact ⟨fun h => .inr fun hp => Bool.false_ne_true (h hp), fun h hp => absurd hp (h.resolve_left nofun)⟩

/-- **Errors are filed by their own class**, and only a cancelled operation is reported as one: an operation `f` that fails
with a message, filed by its class, and an operation `g` that fails with one of ours. -/
theorem classified_iff {α : Type} (h : Header) (payload : Text) (cancelled : Bool) (s : Duck)
    {f g : Act Duck EngineError α} (hf : (f (s.arm true)).1 = .err (classifyMessage (h.message payload)))
    (hg : (g (s.arm true)).1 = .err (.engine (h.message payload))) :
    (kind (classifyMessage (h.message payload)) = kindOf h.known ↔ h.known.isSome ∨ ¬ShowsClass (h.message payload)) ∧
      (((runWithAbort f s).1 = .err .cancelled → cancelled = true) ↔
        cancelled = true ∨ ¬((h.known = none ∧ ¬ShowsClass (h.message payload)) ∧ SaysInterrupt (trim (h.message payload)))) ∧
      (((runWithAbort g s).1 = .err .cancelled → cancelled = true) ↔
        cancelled = true ∨ ¬SaysInterrupt (h.message payload)) := by
  refine ⟨kind_eq_iff h payload, ?_, ?_⟩
  · rw [runWithAbort_err hf, normalizeInterrupt_classifyMessage, kind_eq_engine_iff, imp_iff_or_not]
  · rw [runWithAbort_err hg, normalizeInterrupt_engine, imp_iff_or_not]

/-- The class of a message, checked. -/
def header (cls : Text) (h : (':' ∉ cls ∧ '\n' ∉ cls ∧ '\r' ∉ cls) ∧ ∃ c ∈ cls.head?, isWhitespace c = false) : Header :=
  ⟨cls, h.1.1, h.1.2.1, h.1.2.2, h.2⟩

/-- A parser error that quotes a statement with another class in it. -/
theorem quoted_class_filed :
    kind (classifyMessage "Parser Error: syntax error\nIO Error: INTERRUPT".toList) = .parse := by
  have h := classified_iff (header "Parser Error".toList ⟨by decide, 'P', rfl, by decide⟩)
    " syntax error\nIO Error: INTERRUPT".toList false (Duck.fresh []) (f := Act.fail _) (g := Act.fail _) (α := Unit) rfl rfl
  exact h.1.2 (.inl (by decide))

/-- A class that is not keyed on. -/
def outOfMemory : Header := header "Out of Memory Error".toList ⟨by decide, 'O', rfl, by decide⟩

/-- The memory limit, hit while data with a line of its own is read, is filed as a parser error; and, hit while a file of
interrupts is read, it is reported as a cancellation of an operation that nobody cancelled. -/
theorem quoted_class_misfiled :
    kind (classifyMessage (outOfMemory.message " failed to allocate data\nParser Error: not one".toList)) ≠
        kindOf outOfMemory.known ∧
      (runWithAbort (Act.fail (classifyMessage (outOfMemory.message " failed to scan interrupts.csv".toList)) :
        Act Duck EngineError Unit) (Duck.fresh [])).1 = .err .cancelled := by
  decide +kernel

end Errclass

end Latiq.EngineDuckdb
