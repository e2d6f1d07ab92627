import Latiq.Library.RustStr

/-!
# DuckDB error classes

`errclass.rs` files an error of DuckDB by the exception class its message
starts with, and never by the call that returned it. The class leads a line of
the message, which need not be the first.

## What is proved

* `classifyMessage_eq_engine` — an error stays `Engine`, with its whole message,
  exactly when its line has no class that is keyed on.
* `classifyMessage_ne_cancelled` — a cancellation is never read off a message
  here; `run_with_abort` alone decides it.
-/

namespace Latiq.EngineDuckdb

open RustStr

/-- `latiq_engine::EngineError`. -/
inductive EngineError where
  | parse (msg : Text)
  | catalog (msg : Text)
  | conversion (msg : Text)
  | constraint (msg : Text)
  | sourceIo (msg : Text)
  | unsupported (message : Text) (feature : Option Text)
  | capabilityUnavailable (message capability : Text)
  | invalidInput (msg : Text)
  | missingParameter (msg : Text)
  | unsupportedParameter (msg : Text)
  | transactionControl (msg : Text)
  | readOnlyViolation
  | cancelled
  | timeout
  | engine (msg : Text)
  deriving DecidableEq, Repr

namespace Errclass

/-- The class prefixes that are keyed on. -/
inductive Class where
  | parser | syntax_ | catalog | binder | conversion | constraint | io | http | notImplemented | invalidInput
  | outOfRange | transaction
  deriving DecidableEq, Repr

/-- The class as DuckDB writes it. -/
def Class.text : Class → Text
  | .parser => "Parser Error".toList
  | .syntax_ => "Syntax Error".toList
  | .catalog => "Catalog Error".toList
  | .binder => "Binder Error".toList
  | .conversion => "Conversion Error".toList
  | .constraint => "Constraint Error".toList
  | .io => "IO Error".toList
  | .http => "HTTP Error".toList
  | .notImplemented => "Not implemented Error".toList
  | .invalidInput => "Invalid Input Error".toList
  | .outOfRange => "Out of Range Error".toList
  | .transaction => "TransactionContext Error".toList

/-- The classes, in the order they are tried. -/
def classes : List Class :=
  [.parser, .syntax_, .catalog, .binder, .conversion, .constraint, .io, .http, .notImplemented, .invalidInput,
    .outOfRange, .transaction]

/-- `"<Class>:"` at the head of the message. -/
def isClassPrefix (msg cls : Text) : Bool :=
  eqIgnoreAsciiCase (msg.take cls.length) cls && (msg.drop cls.length).head? == some ':'

/-- The class prefix this message leads with, if it is one we key on. -/
def classOf (msg : Text) : Option Class := classes.find? fun c => isClassPrefix msg c.text

/-- Trim, drop full stops and exclamation marks from the end, and trim again; nothing is no feature. -/
def trimFeature (t : Text) : Option Text :=
  let t := trim ((trim t).rdropWhile fun c => c == '.' || c == '!')
  if t = [] then none else some t

/-- The feature DuckDB named as unsupported, in its words. -/
def unsupportedFeature (line : Text) : Option Text :=
  let detail := ((splitOnce [':'] line).map fun (_, rest) => trim rest).getD line
  match splitOnce " does not support ".toList detail with
  | some (_, feature) => trimFeature feature
  | none =>
    match splitOnce " are not supported".toList detail with
    | some (feature, _) => trimFeature feature
    | none =>
      match splitOnce " is not supported".toList detail with
      | some (feature, _) => trimFeature feature
      | none => none

/-- The first line of the trimmed message that leads with a class, or the whole of it. -/
def classLine (m : Text) : Text := (((lines m).find? fun l => (classOf (trim l)).isSome).map trim).getD m

/-- Classify an error by the exception class in its message. -/
def classifyMessage (msg : Text) : EngineError :=
  let m := trim msg
  let line := classLine m
  match classOf line with
  | some .parser | some .syntax_ => .parse m
  | some .catalog | some .binder => .catalog m
  | some .conversion => .conversion m
  | some .constraint => .constraint m
  | some .io | some .http => .sourceIo m
  | some .notImplemented => .unsupported m (unsupportedFeature line)
  | some .invalidInput | some .outOfRange => .invalidInput m
  | some .transaction => .transactionControl m
  | none => .engine m

/-- An error stays `Engine`, with the whole message, exactly when its line has no class we key on. -/
theorem classifyMessage_eq_engine {msg m : Text} :
    classifyMessage msg = .engine m ↔ classOf (classLine (trim msg)) = none ∧ m = trim msg := by
  unfold classifyMessage
  dsimp only
  rcases classOf (classLine (trim msg)) with _ | c
  · simp [eq_comm]
  · cases c <;> simp

/-- No message is classified as a cancellation. -/
theorem classifyMessage_ne_cancelled (msg : Text) : classifyMessage msg ≠ .cancelled := by
  unfold classifyMessage
  dsimp only
  rcases classOf (classLine (trim msg)) with _ | c
  · simp
  · cases c <;> simp

end Errclass

end Latiq.EngineDuckdb
