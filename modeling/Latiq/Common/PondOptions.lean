import Latiq.Library.RustStr
import Mathlib.Algebra.GroupWithZero.Nat

/-!
# What a pond is created with

Its tier, its name and its extensions: what they are checked against, and how they are
stored.

* `PondTier.parseForCreate` — the tier a create path was asked for.
* `validatePondName` — ASCII letters, digits, `_` and `-`, at most 64 of them.
* `validateExtensions`, `joinCsv`, `parseCsv` — the allow-list, and the form in which the registry stores a list;
  `parseCsv_joinCsv_iff` says which lists it gives back.
-/

namespace Latiq.Common

open RustStr

/-! ### Tiers -/

/-- `PondTier`. -/
inductive PondTier where
  | none
  | xSmall
  | small
  | medium
  | large
  | xLarge
  deriving DecidableEq, Repr

namespace PondTier

/-- `as_str`. -/
def asStr : PondTier → Text
  | .none => "none".toList
  | .xSmall => "x-small".toList
  | .small => "small".toList
  | .medium => "medium".toList
  | .large => "large".toList
  | .xLarge => "x-large".toList

/-- The spellings of the tiers. -/
def spellings : List (Text × PondTier) :=
  [("none".toList, .none), ("uncapped".toList, .none), ("x-small".toList, .xSmall), ("xsmall".toList, .xSmall),
    ("small".toList, .small), ("medium".toList, .medium), ("large".toList, .large), ("x-large".toList, .xLarge),
    ("xlarge".toList, .xLarge)]

/-- `parse`. -/
def parse (s : Text) : Option PondTier := spellings.lookup (toLowercase (trim s))

/-- `CREATABLE`. -/
def creatable : List Text :=
  ["x-small".toList, "small".toList, "medium".toList, "large".toList, "x-large".toList]

/-- `parse_for_create`: an empty name is the default. -/
def parseForCreate (s : Text) : Except Text PondTier :=
  if trim s = [] then .ok .medium
  else
    match parse s with
    | .some t => .ok t
    | .none =>
      .error ("unknown tier '".toList ++ trim s ++ "'. Allowed at creation: ".toList ++
        List.intercalate ", ".toList creatable ++ ".".toList)

/-- A tier is what its name is parsed as. -/
theorem parse_asStr (t : PondTier) : parse t.asStr = some t := by
  cases t <;> decide

end PondTier

/-! ### Names -/

/-- `MAX_LEN` of a pond name, in bytes. -/
def pondNameMaxLen : ℕ := 64

/-- `RULE`. -/
def pondNameRule : Text :=
  ("1-64 characters, letters, digits, `_` or `-` only (it is used as the pond's SQL catalog name)").toList

/-- A character a pond name may have. -/
def isPondNameChar (c : Char) : Bool := c.isAlphanum || c == '_' || c == '-'

/-- `str::len`. -/
def byteLen (t : Text) : ℕ := (t.map Char.utf8Size).sum

/-- `pond_name::validate`. -/
def validatePondName (name : Text) : Except Text Unit :=
  if name = [] then
    .error ("pond name must not be empty — omit `name` entirely to have Latiq generate one. A name is ".toList ++
      pondNameRule ++ ".".toList)
  else if byteLen name > pondNameMaxLen then
    .error ("pond name is ".toList ++ (Nat.repr (byteLen name)).toList ++ " characters, over the ".toList ++
      (Nat.repr pondNameMaxLen).toList ++ "-character maximum. A name is ".toList ++ pondNameRule ++ ".".toList)
  else
    match name.find? fun c => !isPondNameChar c with
    | some bad =>
      .error ("pond name '".toList ++ name ++ "' contains '".toList ++ [bad] ++
        "', which is not allowed. A name is ".toList ++ pondNameRule ++ ".".toList)
    | none => .ok ()

theorem isPondNameChar_of_validate {name : Text} (h : validatePondName name = .ok ()) :
    ∀ c ∈ name, isPondNameChar c = true := by
  unfold validatePondName at h
  split at h
  · cases h
  · split at h
    · cases h
    · cases hf : name.find? fun c => !isPondNameChar c with
      | some bad =>
        rw [hf] at h
        cases h
      | none =>
        intro c hc
        simpa using List.find?_eq_none.1 hf c hc

/-! ### Extensions -/

/-- `STANDARD`: loaded into every pond. -/
def standardExtensions : List Text :=
  ["ducklake".toList, "httpfs".toList, "parquet".toList, "json".toList, "icu".toList]

/-- `OPTIONAL`: the extensions a pond can ask for. -/
def optionalExtensions : List Text := ["spatial".toList, "fts".toList, "inet".toList]

/-- The loop of `validate`, with what it has let in so far. -/
def validateExtensionsFrom (out : List Text) : List Text → Except Text (List Text)
  | [] => .ok out
  | raw :: rest =>
    let name := toLowercase (trim raw)
    if name = [] ∨ name ∈ standardExtensions then validateExtensionsFrom out rest
    else if name ∉ optionalExtensions then
      .error ("unknown or unsupported extension '".toList ++ name ++ "'. Allowed: ".toList ++
        List.intercalate ", ".toList optionalExtensions ++
        (". Community/unsigned extensions aren't supported — bake new ones into the deployment image and upgrade Latiq."
          ).toList)
    else validateExtensionsFrom (if name ∈ out then out else out ++ [name]) rest

/-- `extensions::validate`. -/
def validateExtensions (requested : List Text) : Except Text (List Text) := validateExtensionsFrom [] requested

/-- `extensions.join(",")`. -/
def joinCsv (extensions : List Text) : Text := List.intercalate [','] extensions

/-- `parse_csv`. -/
def parseCsv (s : Text) : List Text := ((s.splitOn ',').map trim).filter (· ≠ [])

/-- What the check of a list lets in is in the allow-list. -/
theorem validateExtensionsFrom_ok {out requested list : List Text} (hout : ∀ e ∈ out, e ∈ optionalExtensions)
    (h : validateExtensionsFrom out requested = .ok list) : ∀ e ∈ list, e ∈ optionalExtensions := by
  induction requested generalizing out with
  | nil =>
    cases h
    exact hout
  | cons raw rest ih =>
    simp only [validateExtensionsFrom] at h
    split at h
    · exact ih hout h
    · split at h
      · cases h
      · rename_i hmem
        refine ih ?_ h
        split
        · exact hout
        · intro e he
          rcases List.mem_append.1 he with he | he
          · exact hout e he
          · rw [List.mem_singleton.1 he]
            exact not_not.1 hmem

theorem validateExtensions_ok {requested list : List Text} (h : validateExtensions requested = .ok list) :
    ∀ e ∈ list, e ∈ optionalExtensions :=
  validateExtensionsFrom_ok (List.forall_mem_nil _) h

/-- **What the registry stores reads back** exactly when each extension is trimmed, and neither blank nor with a comma. -/
theorem parseCsv_joinCsv_iff (l : List Text) :
    parseCsv (joinCsv l) = l ↔ ∀ e ∈ l, e ≠ [] ∧ trim e = e ∧ ',' ∉ e := by
  constructor
  · intro h e he
    rw [← h, parseCsv, List.mem_filter, List.mem_map, decide_eq_true_eq] at he
    obtain ⟨⟨piece, hpiece, rfl⟩, hne⟩ := he
    exact ⟨hne, trim_trim piece, fun hc => not_mem_of_mem_splitOn hpiece (mem_of_mem_trim hc)⟩
  · intro h
    cases l with
    | nil => rfl
    | cons e es =>
      have hsplit : (joinCsv (e :: es)).splitOn ',' = e :: es :=
        List.splitOn_intercalate ',' (fun l hl => (h l hl).2.2) (List.cons_ne_nil _ _)
      have htrim : (e :: es).map trim = e :: es := by
        conv_rhs => rw [← List.map_id (e :: es)]
        exact List.map_congr_left fun l hl => (h l hl).2.1
      rw [parseCsv, hsplit, htrim, List.filter_eq_self]
      intro l hl
      exact decide_eq_true (h l hl).1

end Latiq.Common
