import Latiq.EngineDuckdb.Grammar
import Latiq.EngineDuckdb.OneWriter
import Latiq.ControlPlane.Registry
import Mathlib.Algebra.Group.Nat.Defs
import Mathlib.Data.List.Forall2

/-!
# Opening a pond

`PondInstance::open` runs a list of texts: the caps of the tier, the fixed configuration, a
`LOAD` for each extension, and the `ATTACH` of the pond's catalog. The extensions
are those of the registry row, and the locations are texts with the root of the
storage in them.

## The model

* `Path`, `Location`, `locationFor` — where a pond is, and what a node knows of it when it opens it.
* `openBatches` — the texts; `openStatements` — the tokens of the statements that DuckDB finds in them.

## What is proved

* `opens_as_intended_iff` — the statements are the fixed ones, one `LOAD` of an allowed extension for each
  extension that was asked for, and one `ATTACH` of the pond's own locations, and the
  list reads back as it was accepted: exactly when each extension is `Plain`, and the root has
  neither quotes nor bytes that are no characters.
* `validated_opens_as_intended` — a list that was validated is plain.
* `loads_what_it_is_told` — an accepted list that runs a statement of its own.
-/

namespace Latiq.EngineDuckdb

namespace PondInstance

open SqlLex
open RustStr (trim)
open Latiq.Common Latiq.ControlPlane

/-! ### Where a pond is -/

/-- A path: `none` stands for bytes that are no character. -/
abbrev Path := List (Option Char)

/-- `Path::display`. -/
def display (p : Path) : Text := p.map (·.getD '\uFFFD')

/-- `Path::join`, of one component. -/
def join (p : Path) (t : Text) : Path :=
  if p = [] ∨ p.getLast? = some (some '/') then p ++ t.map some else p ++ some '/' :: t.map some

/-- `limits` of a tier. -/
def tierLimitsOf : PondTier → Option ResourceLimits
  | .none => none
  | .xSmall => some ⟨512 * 2 ^ 20, 1⟩
  | .small => some ⟨2 ^ 30, 2⟩
  | .medium => some ⟨4 * 2 ^ 30, 4⟩
  | .large => some ⟨16 * 2 ^ 30, 8⟩
  | .xLarge => some ⟨32 * 2 ^ 30, 16⟩

/-- `tier_limits`. -/
def tierLimits (tier : Text) : Option ResourceLimits := tierLimitsOf ((PondTier.parse tier).getD .medium)

/-- What `open` reads of a `PondLocation`. -/
structure Location where
  catalogUri : Text
  dataPath : Text
  catalogName : Text
  limits : Option ResourceLimits
  extensions : List Text
  deriving DecidableEq, Repr

/-- `pond_dir`. -/
def pondDir (root : Path) (pondId : Text) : Path := join root pondId

def catalogPath (root : Path) (pondId : Text) : Path := join (pondDir root pondId) "catalog.duckdb".toList

def dataDir (root : Path) (pondId : Text) : Path := join (pondDir root pondId) "data".toList

/-- What a catalog's location begins with. -/
def catalogScheme : Text := "ducklake:duckdb:".toList

/-- `location_for`, with what an operation sets from the registry. -/
def locationFor (root : Path) (info : PondInfo) : Location :=
  ⟨catalogScheme ++ display (catalogPath root info.pondId), display (dataDir root info.pondId), info.name,
    tierLimits info.tier, info.extensions⟩

/-! ### The texts -/

/-- `LOAD {ext};` -/
def loadText (ext : Text) : Text := "LOAD".toList ++ ' ' :: (ext ++ [';'])

/-- `STANDARD_LOAD`. -/
def standardLoad : List Text := ["ducklake".toList, "httpfs".toList, "icu".toList]

/-- The caps of a tier. -/
def limitsText (lim : ResourceLimits) : Text :=
  "SET memory_limit='".toList ++ (Nat.repr (lim.memoryBytes / (1024 * 1024))).toList ++ "MiB'; SET threads=".toList ++
    (Nat.repr (max lim.cores 1)).toList ++ [';']

/-- `ATTACH '{catalog_uri}' AS {alias} (DATA_PATH '{data_path}');` -/
def attachText (loc : Location) : Text :=
  "ATTACH".toList ++ ' ' :: '\'' :: (loc.catalogUri ++ '\'' :: ' ' :: ("AS".toList ++ ' ' ::
    (quoteIdent loc.catalogName ++ ' ' :: '(' :: ("DATA_PATH".toList ++ ' ' :: '\'' :: (loc.dataPath ++
      ['\'', ')', ';'])))))

/-- `USE {alias};` -/
def useText (loc : Location) : Text := "USE".toList ++ ' ' :: (quoteIdent loc.catalogName ++ [';'])

/-- The texts before the extensions of the pond. -/
def configurationBatches (limits : Option ResourceLimits) : List Text :=
  (limits.map limitsText).toList ++ ["SET autoinstall_known_extensions=false;".toList] ++ standardLoad.map loadText ++
    ["SET TimeZone='UTC';".toList, "SET force_download=true;".toList]

/-- The texts of `open`, in order. -/
def openBatches (loc : Location) : List Text :=
  configurationBatches loc.limits ++ (loc.extensions.map loadText ++ [attachText loc, useText loc])

/-- The statements of a text, or nothing if a literal or a comment in it is not closed. -/
def statements (sql : Text) : Option (List (List Item)) := (lex sql).map segments

/-- The statements of texts that are run one after another. -/
def runBatches : List Text → Option (List (List Item))
  | [] => some []
  | t :: ts => do
    let a ← statements t
    let b ← runBatches ts
    return a ++ b

/-- What DuckDB is given to run. -/
def openStatements (loc : Location) : Option (List (List Item)) := runBatches (openBatches loc)

/-! ### What is intended -/

/-- `SET {name}={value}` -/
def setStatement (name : String) (value : Item) : List Item := [kw "SET", kw name, .punct '=', value]

/-- The statements before the extensions of the pond. -/
def configuration (limits : Option ResourceLimits) : List (List Item) :=
  (match limits with
    | some lim =>
      [setStatement "memory_limit" (.str ((Nat.repr (lim.memoryBytes / (1024 * 1024))).toList ++ "MiB".toList)),
        setStatement "threads" (.number (Nat.repr (max lim.cores 1)).toList)]
    | none => []) ++
  [setStatement "autoinstall_known_extensions" (kw "false")] ++ standardLoad.map (fun e => [kw "LOAD", .word e]) ++
  [setStatement "TimeZone" (.str "UTC".toList), setStatement "force_download" (kw "true")]

/-- The `ATTACH`, with the bodies of its literals. -/
def attachStatement (catalog name data : Text) : List Item :=
  [kw "ATTACH", .str catalog, kw "AS", .quoted name, .punct '(', kw "DATA_PATH", .str data, .punct ')']

def useStatement (name : Text) : List Item := [kw "USE", .quoted name]

/-- What a token names: an identifier, or a string. -/
def named : Item → Option Text
  | .word w => some w
  | .quoted b => some (undouble '"' b)
  | .str b => some (undouble '\'' b)
  | .dollar _ b => some b
  | .estr _ b => if '\\' ∈ b then none else some (undouble '\'' b)
  | _ => none

/-- A `LOAD` of an allowed extension. -/
def LoadsOptional (st : List Item) : Prop := ∃ t w, st = [kw "LOAD", t] ∧ named t = some w ∧ w ∈ optionalExtensions

/-- The body of a literal says the path. -/
def SaysPath (scheme body : Text) (p : Path) : Prop := (undouble '\'' body).map some = scheme.map some ++ p

/-- **The intended opening** of a pond whose create asked for these extensions. -/
structure OpensAsIntended (root : Path) (info : PondInfo) (requested : List Text) : Prop where
  runs : ∃ loads catalog data,
    openStatements (locationFor root info) = some (configuration (tierLimits info.tier) ++
      (loads ++ [attachStatement catalog (double '"' info.name) data, useStatement (double '"' info.name)])) ∧
    loads.length = requested.length ∧ (∀ st ∈ loads, LoadsOptional st) ∧
    SaysPath catalogScheme catalog (catalogPath root info.pondId) ∧ SaysPath [] data (dataDir root info.pondId)
  readBack : info.extensions = requested

/-- The extension is one token that names an allowed one, up to semicolons, whitespace and comments. -/
def NamesOptional (e : Text) : Prop :=
  ∃ items t n w, Lexes (e ++ [';']) items ∧
    items.filter (!·.isGap) = t :: List.replicate n (.punct ';') ∧ named t = some w ∧ w ∈ optionalExtensions

/-- An extension that is stored and loaded as what it is. -/
structure Plain (e : Text) : Prop where
  ne_nil : e ≠ []
  trimmed : trim e = e
  noComma : ',' ∉ e
  names : NamesOptional e

/-! ### Running texts one after another -/

theorem statements_eq_some {t : Text} {L : List (List Item)} :
    statements t = some L ↔ ∃ is, Lexes t is ∧ L = segments is := by
  simp only [statements, Option.map_eq_some_iff, lex_eq_some]
  constructor
  · rintro ⟨is, his, rfl⟩
    exact ⟨is, his, rfl⟩
  · rintro ⟨is, his, rfl⟩
    exact ⟨is, his, rfl⟩

theorem runBatches_append (ts us : List Text) :
    runBatches (ts ++ us) = (runBatches ts).bind fun a => (runBatches us).map (a ++ ·) := by
  induction ts with
  | nil => cases h : runBatches us <;> simp [runBatches, h]
  | cons t ts ih =>
    simp only [List.cons_append, runBatches, ih]
    cases statements t with
    | none => rfl
    | some a =>
      cases runBatches ts with
      | none => rfl
      | some b => cases runBatches us <;> simp

theorem runBatches_of_forall₂ {ts : List Text} {S : List (List Item)}
    (h : List.Forall₂ (fun t st => statements t = some [st]) ts S) : runBatches ts = some S := by
  induction h with
  | nil => rfl
  | cons h _ ih => simp [runBatches, h, ih]

/-- Texts with a statement each have no more statements than texts only if each has a single one. -/
theorem forall₂_of_runBatches {ts : List Text} {S : List (List Item)}
    (hlead : ∀ t ∈ ts, ∀ L, statements t = some L → L ≠ []) (h : runBatches ts = some S) :
    ts.length ≤ S.length ∧
      (S.length ≤ ts.length → List.Forall₂ (fun t st => statements t = some [st]) ts S) := by
  induction ts generalizing S with
  | nil =>
    cases h
    exact ⟨le_rfl, fun _ => .nil⟩
  | cons t ts ih =>
    simp only [runBatches, Option.bind_eq_bind, Option.bind_eq_some_iff] at h
    obtain ⟨a, ha, b, hb, h⟩ := h
    cases h
    obtain ⟨hle, hsingle⟩ := ih (fun u hu => hlead u (List.mem_cons_of_mem _ hu)) hb
    have hne := hlead t (List.mem_cons_self ..) a ha
    cases a with
    | nil => exact absurd rfl hne
    | cons st a =>
      simp only [List.cons_append, List.length_cons, List.length_append]
      refine ⟨by omega, fun hlen => ?_⟩
      have hnil : a = [] := List.eq_nil_of_length_eq_zero (by omega)
      subst hnil
      exact .cons ha (hsingle (by simp only [List.length_nil] at hlen; omega))

/-- A text that begins with a word. -/
theorem statements_word {w r : Text} {L : List (List Item)} (hs : startsWith isWordStart w) (hw : w.all isWordChar) :
    statements (w ++ ' ' :: r) = some L ↔ ∃ is, Lexes r is ∧ L = segments (.word w :: .space ' ' :: is) := by
  have htakes : TakesAll (w ++ ' ' :: r) [.word w, .space ' '] r :=
    .cons (takes_word hs hw rfl (by decide)) (.cons (.space rfl) .nil)
  rw [statements_eq_some]
  constructor
  · rintro ⟨is, his, rfl⟩
    obtain ⟨js, rfl, hjs⟩ := htakes.lexes_iff.1 his
    exact ⟨js, hjs, rfl⟩
  · rintro ⟨js, hjs, rfl⟩
    exact ⟨_, htakes.lexes_iff.2 ⟨js, rfl, hjs⟩, rfl⟩

theorem statements_word_ne_nil {w r : Text} {L : List (List Item)} (hs : startsWith isWordStart w)
    (hw : w.all isWordChar) (h : statements (w ++ ' ' :: r) = some L) : L ≠ [] := by
  obtain ⟨is, -, rfl⟩ := (statements_word hs hw).1 h
  obtain ⟨p, ps, -, hseg⟩ := segments_lead (t := .word w) rfl nofun (.space ' ' :: is)
  rw [hseg]
  exact List.cons_ne_nil _ _

/-- **An extension is loaded as one that is allowed** exactly when it names one. -/
theorem loads_iff {e : Text} : (∃ st, statements (loadText e) = some [st] ∧ LoadsOptional st) ↔ NamesOptional e := by
  constructor
  · rintro ⟨st, hst, t, w, rfl, hnamed, hmem⟩
    obtain ⟨is, his, hseg⟩ := (statements_word (by decide) (by decide)).1 hst
    obtain ⟨n, hn, -⟩ := (segments_lead_eq (t := kw "LOAD") rfl nofun).1 hseg.symm
    exact ⟨is, t, n, w, his, by simpa [Item.isGap] using hn, hnamed, hmem⟩
  · rintro ⟨is, t, n, w, his, hfilter, hnamed, hmem⟩
    have hsemi : t ≠ .punct ';' := by
      rintro rfl
      cases hnamed
    refine ⟨[kw "LOAD", t], ?_, t, w, rfl, hnamed, hmem⟩
    refine (statements_word (by decide) (by decide)).2 ⟨is, his, ?_⟩
    refine ((segments_lead_eq (t := kw "LOAD") rfl nofun).2 ⟨n, ?_, ?_⟩).symm
    · simpa [Item.isGap] using hfilter
    · simpa using hsemi.symm

/-- The configuration is what it is written as. -/
theorem runBatches_configuration (t : PondTier) :
    runBatches (configurationBatches (tierLimitsOf t)) = some (configuration (tierLimitsOf t)) := by
  cases t <;> decide +kernel

theorem statements_useText (loc : Location) :
    statements (useText loc) = some [useStatement (double '"' loc.catalogName)] := by
  refine (statements_word (by decide) (by decide)).2
    ⟨[.quoted (double '"' loc.catalogName), .punct ';'], lexes_quoteIdent loc.catalogName rfl ?_, rfl⟩
  exact .cons (lexItem_eq_some.1 rfl) .nil

/-! ### The locations -/

/-- All bytes of the path are characters, and none is a quote. -/
def Unquoted (p : Path) : Prop := ∀ c ∈ p, c ≠ none ∧ c ≠ some '\''

theorem mem_join {p : Path} {t : Text} {c : Option Char} (h : c ∈ join p t) :
    c ∈ p ∨ c = some '/' ∨ ∃ d ∈ t, c = some d := by
  unfold join at h
  split at h
  · rcases List.mem_append.1 h with h | h
    · exact .inl h
    · obtain ⟨d, hd, rfl⟩ := List.mem_map.1 h
      exact .inr (.inr ⟨d, hd, rfl⟩)
  · rcases List.mem_append.1 h with h | h
    · exact .inl h
    · rcases List.mem_cons.1 h with h | h
      · exact .inr (.inl h)
      · obtain ⟨d, hd, rfl⟩ := List.mem_map.1 h
        exact .inr (.inr ⟨d, hd, rfl⟩)

theorem unquoted_join_iff {p : Path} {t : Text} (ht : '\'' ∉ t) : Unquoted (join p t) ↔ Unquoted p := by
  constructor
  · intro h c hc
    refine h c ?_
    unfold join
    split <;> exact List.mem_append_left _ hc
  · intro h c hc
    rcases mem_join hc with hc | rfl | ⟨d, hd, rfl⟩
    · exact h c hc
    · exact ⟨nofun, by decide⟩
    · refine ⟨nofun, fun heq => ht ?_⟩
      cases heq
      exact hd

/-- A displayed path ends with its last component. -/
theorem display_join (p : Path) (t : Text) : ∃ u, display (join p t) = u ++ t := by
  have hmap : (t.map some).map (·.getD '\uFFFD') = t := by simp [Function.comp_def]
  unfold join display
  split
  · exact ⟨_, by rw [List.map_append, hmap]⟩
  · refine ⟨p.map (·.getD '\uFFFD') ++ ['/'], ?_⟩
    rw [List.map_append, List.map_cons, hmap]
    simp

theorem quote_mem_display {p : Path} : '\'' ∈ display p ↔ some '\'' ∈ p := by
  unfold display
  rw [List.mem_map]
  constructor
  · rintro ⟨c, hc, heq⟩
    cases c with
    | none => exact absurd heq (by decide)
    | some d =>
      cases heq
      exact hc
  · intro h
    exact ⟨_, h, rfl⟩

theorem map_some_display {p : Path} (h : none ∉ p) : (display p).map some = p := by
  unfold display
  rw [List.map_map]
  conv_rhs => rw [← List.map_id p]
  refine List.map_congr_left fun c hc => ?_
  cases c with
  | none => exact absurd hc h
  | some d => rfl

/-- **The literal of a path that is put between quotes as it is** says the path, if there is nothing in the path that
is a quote or no character. -/
theorem saysPath_of_unquoted {scheme : Text} {p : Path} (hs : '\'' ∉ scheme) (h : Unquoted p) :
    '\'' ∉ scheme ++ display p ∧ SaysPath scheme (scheme ++ display p) p := by
  have hq : '\'' ∉ scheme ++ display p := by
    rw [List.mem_append, not_or, quote_mem_display]
    exact ⟨hs, fun hmem => (h _ hmem).2 rfl⟩
  refine ⟨hq, ?_⟩
  have hsame := undouble_double '\'' (scheme ++ display p)
  rw [double_of_not_mem hq] at hsame
  rw [SaysPath, hsame, List.map_append, map_some_display fun hmem => (h _ hmem).1 rfl]

/-- Conversely, what the literal of a path begins with is its text, so that a quote would end it. -/
theorem unquoted_of_saysPath {scheme r b r' : Text} {p : Path} (hlast : (scheme ++ display p).getLast? ≠ some '\'')
    (hscan : scanQuote '\'' (scheme ++ display p ++ '\'' :: r) = some (b, r')) (h : SaysPath scheme b p) :
    Unquoted p := by
  have hnone : none ∉ p := by
    intro hmem
    have hin : none ∈ (undouble '\'' b).map some := by
      rw [h]
      exact List.mem_append_right _ hmem
    simp at hin
  have htext : undouble '\'' b = scheme ++ display p := by
    have hmap : (undouble '\'' b).map some = (scheme ++ display p).map some := by
      rw [h, List.map_append, map_some_display hnone]
    exact (List.map_inj_right fun _ _ => Option.some.inj).1 hmap
  have hquote := not_mem_of_undouble_eq hscan htext hlast
  intro c hc
  refine ⟨?_, ?_⟩
  · rintro rfl
    exact hnone hc
  · rintro rfl
    exact hquote (List.mem_append_right _ (quote_mem_display.2 hc))

/-- The `ATTACH` of locations without quotes. -/
theorem statements_attachText {loc : Location} (huri : '\'' ∉ loc.catalogUri) (hdata : '\'' ∉ loc.dataPath) :
    statements (attachText loc) =
      some [attachStatement loc.catalogUri (double '"' loc.catalogName) loc.dataPath] := by
  have hlit : ∀ {v r : Text}, '\'' ∉ v → '\'' :: (v ++ '\'' :: r) = literal v ++ r := by
    intro v r hv
    simp [literal, double_of_not_mem hv]
  have hspace {r : Text} {is : List Item} (h : Lexes r is) : Lexes (' ' :: r) (.space ' ' :: is) :=
    .cons (.space rfl) h
  refine (statements_word (by decide) (by decide)).2
    ⟨[.str loc.catalogUri, .space ' ', kw "AS", .space ' ', .quoted (double '"' loc.catalogName), .space ' ', .punct '(',
      kw "DATA_PATH", .space ' ', .str loc.dataPath, .punct ')', .punct ';'], ?_, rfl⟩
  rw [hlit huri, hlit hdata]
  have hbody := lexes_literal loc.dataPath (r := [')', ';']) rfl
    (.cons (lexItem_eq_some.1 rfl) (.cons (lexItem_eq_some.1 rfl) .nil))
  rw [double_of_not_mem hdata] at hbody
  have huse := lexes_quoteIdent loc.catalogName (r := ' ' :: '(' :: ("DATA_PATH".toList ++ ' ' ::
    (literal loc.dataPath ++ [')', ';']))) rfl
    (hspace (.cons (lexItem_eq_some.1 rfl) (.word (by decide) (by decide) rfl rfl (hspace hbody))))
  have hcat := lexes_literal loc.catalogUri (r := ' ' :: ("AS".toList ++ ' ' :: (quoteIdent loc.catalogName ++ ' ' ::
    '(' :: ("DATA_PATH".toList ++ ' ' :: (literal loc.dataPath ++ [')', ';'])))))  rfl
    (hspace (.word (by decide) (by decide) rfl rfl (hspace huse)))
  rwa [double_of_not_mem huri] at hcat

/-- The first literal of an `ATTACH` is what is scanned behind its first quote. -/
theorem scanQuote_of_attachText {loc : Location} {catalog name data : Text}
    (h : statements (attachText loc) = some [attachStatement catalog name data]) :
    ∃ r r', scanQuote '\'' (loc.catalogUri ++ '\'' :: r) = some (catalog, r') := by
  obtain ⟨is, his, hseg⟩ := (statements_word (by decide) (by decide)).1 h
  obtain ⟨n, hn, -⟩ := (segments_lead_eq (t := kw "ATTACH") rfl nofun).1 hseg.symm
  cases his with
  | cons htakes hrest =>
    have hitem := lexItem_eq_some.2 htakes
    have hquote : ∀ t, lexItem ('\'' :: t) = (scanQuote '\'' t).map fun p => (.str p.1, p.2) := fun t => by
      simp [lexItem, isSpace]
    rw [hquote, Option.map_eq_some_iff] at hitem
    obtain ⟨⟨b, r'⟩, hscan, heq⟩ := hitem
    cases heq
    simp only [List.filter, Item.isGap, Bool.not_true, Bool.not_false, List.cons_append, List.cons.injEq] at hn
    obtain ⟨hb, -⟩ := hn
    cases hb
    exact ⟨_, _, hscan⟩

/-! ### The whole opening -/

/-- **One statement for each text** behind the configuration. -/
theorem openStatements_iff {loc : Location} {t : PondTier} (hlim : loc.limits = tierLimitsOf t)
    {loads : List (List Item)} {a u : List Item} (hlen : loads.length = loc.extensions.length) :
    openStatements loc = some (configuration loc.limits ++ (loads ++ [a, u])) ↔
      List.Forall₂ (fun e st => statements (loadText e) = some [st]) loc.extensions loads ∧
        statements (attachText loc) = some [a] ∧ statements (useText loc) = some [u] := by
  have hconf : openStatements loc = (runBatches (loc.extensions.map loadText ++ [attachText loc, useText loc])).map
      (configuration loc.limits ++ ·) := by
    rw [openStatements, openBatches, runBatches_append, hlim, runBatches_configuration]
    rfl
  have hrest : openStatements loc = some (configuration loc.limits ++ (loads ++ [a, u])) ↔
      runBatches (loc.extensions.map loadText ++ [attachText loc, useText loc]) = some (loads ++ [a, u]) := by
    rw [hconf, Option.map_eq_some_iff]
    constructor
    · rintro ⟨S, hS, heq⟩
      rw [hS, List.append_cancel_left heq]
    · intro h
      exact ⟨_, h, rfl⟩
  rw [hrest]
  constructor
  · intro h
    have hlead : ∀ text ∈ loc.extensions.map loadText ++ [attachText loc, useText loc], ∀ L,
        statements text = some L → L ≠ [] := by
      intro text htext L hL
      simp only [List.mem_append, List.mem_map, List.mem_cons, List.not_mem_nil, or_false] at htext
      rcases htext with ⟨e, -, rfl⟩ | rfl | rfl
      · exact statements_word_ne_nil (by decide) (by decide) hL
      · exact statements_word_ne_nil (by decide) (by decide) hL
      · exact statements_word_ne_nil (by decide) (by decide) hL
    have hall := (forall₂_of_runBatches hlead h).2 (by simp [hlen])
    have hfront := List.forall₂_take_append _ _ _ hall
    have hback := List.forall₂_drop_append _ _ _ hall
    have hcount : loads.length = (loc.extensions.map loadText).length := by rw [hlen, List.length_map]
    rw [hcount, List.take_left', List.forall₂_map_left_iff] at hfront
    · rw [hcount, List.drop_left'] at hback
      · cases hback with
        | cons ha hback =>
          cases hback with
          | cons hu _ => exact ⟨hfront, ha, hu⟩
      · rfl
    · rfl
  · rintro ⟨hloads, ha, hu⟩
    refine runBatches_of_forall₂ ?_
    exact List.rel_append (List.forall₂_map_left_iff.2 hloads) (.cons ha (.cons hu .nil))

/-- **One `LOAD` of an allowed extension for each extension** exactly when each names one. -/
theorem exists_loads_iff {extensions : List Text} :
    (∃ loads, List.Forall₂ (fun e st => statements (loadText e) = some [st]) extensions loads ∧
      ∀ st ∈ loads, LoadsOptional st) ↔ ∀ e ∈ extensions, NamesOptional e := by
  induction extensions with
  | nil => exact ⟨fun _ => nofun, fun _ => ⟨[], .nil, nofun⟩⟩
  | cons e es ih =>
    rw [List.forall_mem_cons, ← ih, ← loads_iff]
    constructor
    · rintro ⟨loads, hloads, hopt⟩
      cases hloads with
      | cons hst hloads =>
        exact ⟨⟨_, hst, hopt _ (List.mem_cons_self ..)⟩, _, hloads, fun st h => hopt st (List.mem_cons_of_mem _ h)⟩
    · rintro ⟨⟨st, hst, hst'⟩, loads, hloads, hopt⟩
      exact ⟨st :: loads, .cons hst hloads, List.forall_mem_cons.2 ⟨hst', hopt⟩⟩

/-- **A pond opens as intended** exactly when each of its extensions is plain, and the root is a path of characters
without quotes. The generated id is itself a legal name. -/
theorem opens_as_intended_iff {r r' : Registry} {pl : Placing} {name : Option Text} {tier : Text}
    {extensions : List Text} {row : PondRow} (h : r.createPond pl name tier extensions = .ok (row, r'))
    (hid : validatePondName pl.pondId = .ok ()) (root : Path) :
    OpensAsIntended root (r'.infoOf row) extensions ↔ (∀ e ∈ extensions, Plain e) ∧ Unquoted root := by
  obtain ⟨t, -, htier, hpid, -, hext, -, -⟩ := Registry.createPond_ok h
  have hlim : tierLimits (r'.infoOf row).tier = tierLimitsOf t := by
    simp [tierLimits, Registry.infoOf, htier, PondTier.parse_asStr]
  have hread : (r'.infoOf row).extensions = parseCsv (joinCsv extensions) := congrArg parseCsv hext
  have hpondId : '\'' ∉ (r'.infoOf row).pondId := by
    intro hmem
    have hchar := isPondNameChar_of_validate hid '\'' (hpid ▸ hmem)
    exact absurd hchar (by decide)
  have hcat : Unquoted (catalogPath root (r'.infoOf row).pondId) ↔ Unquoted root :=
    (unquoted_join_iff (by decide)).trans (unquoted_join_iff hpondId)
  have hdata : Unquoted (dataDir root (r'.infoOf row).pondId) ↔ Unquoted root :=
    (unquoted_join_iff (by decide)).trans (unquoted_join_iff hpondId)
  constructor
  · rintro ⟨⟨loads, catalog, data, hruns, hlen, hopt, hcatalog, -⟩, hback⟩
    obtain ⟨hloads, hattach, -⟩ := (@openStatements_iff (locationFor root (r'.infoOf row)) _ hlim _ _ _
      (by rw [hlen]; exact congrArg List.length hback.symm)).1 hruns
    have hcsv := (parseCsv_joinCsv_iff extensions).1 (hread.symm.trans hback)
    have hnames : ∀ e ∈ extensions, NamesOptional e :=
      exists_loads_iff.1 ⟨loads, by rw [← hback]; exact hloads, hopt⟩
    refine ⟨fun e he => ?_, ?_⟩
    · obtain ⟨hne, htrim, hcomma⟩ := hcsv e he
      exact ⟨hne, htrim, hcomma, hnames e he⟩
    · obtain ⟨rest, r'', hscan⟩ := scanQuote_of_attachText hattach
      refine hcat.1 (unquoted_of_saysPath ?_ hscan hcatalog)
      obtain ⟨u, hu⟩ := display_join (pondDir root (r'.infoOf row).pondId) "catalog.duckdb".toList
      rw [catalogPath, hu, ← List.append_assoc]
      simp
  · rintro ⟨hplain, hroot⟩
    have hback : (r'.infoOf row).extensions = extensions := by
      rw [hread, parseCsv_joinCsv_iff]
      exact fun e he => ⟨(hplain e he).ne_nil, (hplain e he).trimmed, (hplain e he).noComma⟩
    obtain ⟨huri, hsayCat⟩ := @saysPath_of_unquoted catalogScheme _ (by decide) (hcat.2 hroot)
    obtain ⟨hdir, hsayData⟩ := @saysPath_of_unquoted [] _ List.not_mem_nil (hdata.2 hroot)
    obtain ⟨loads, hloads, hopt⟩ := exists_loads_iff.2 fun e he => (hplain e he).names
    refine ⟨⟨loads, _, _, ?_, hloads.length_eq.symm, hopt, hsayCat, hsayData⟩, hback⟩
    refine (@openStatements_iff (locationFor root (r'.infoOf row)) _ hlim _ _ _ ?_).2 ⟨?_, ?_, ?_⟩
    · rw [← hloads.length_eq]
      exact congrArg List.length hback.symm
    · rw [locationFor, hback]
      exact hloads
    · exact statements_attachText huri hdir
    · exact statements_useText _

/-- The optional extensions are plain. -/
theorem plain_of_optional {e : Text} (h : e ∈ optionalExtensions) : Plain e := by
  have hnames : ∀ w ∈ optionalExtensions, lex (w ++ [';']) = some [.word w, .punct ';'] := by decide +kernel
  have hshape : ∀ w ∈ optionalExtensions, w ≠ [] ∧ trim w = w ∧ ',' ∉ w := by decide +kernel
  obtain ⟨hne, htrim, hcomma⟩ := hshape e h
  exact ⟨hne, htrim, hcomma, _, .word e, 1, e, lex_eq_some.1 (hnames e h), rfl, rfl, h⟩

/-- **A validated list** opens as intended, under a root without quotes. -/
theorem validated_opens_as_intended {r r' : Registry} {pl : Placing} {name : Option Text} {tier : Text}
    {requested extensions : List Text} {row : PondRow} (hv : validateExtensions requested = .ok extensions)
    (h : r.createPond pl name tier extensions = .ok (row, r')) (hid : validatePondName pl.pondId = .ok ()) {root : Path}
    (hroot : Unquoted root) : OpensAsIntended root (r'.infoOf row) extensions := by
  refine (opens_as_intended_iff h hid root).2 ⟨fun e he => ?_, hroot⟩
  exact plain_of_optional (validateExtensions_ok hv e he)

/-- A registry with a node. -/
def oneNode : Registry := ⟨[⟨"n".toList, "http://n".toList, true⟩], []⟩

/-- The row of a pond `p`, that asked for these extensions. -/
def rowOf (extensions : Text) : PondRow := ⟨"7f".toList, "p".toList, "n".toList, "small".toList, extensions⟩

theorem opens_spatial :
    OpensAsIntended ("/srv".toList.map some)
      ((Registry.mk oneNode.nodes [rowOf "spatial".toList]).infoOf (rowOf "spatial".toList)) ["spatial".toList] :=
  (@opens_as_intended_iff oneNode _ ⟨0, "7f".toList, none⟩ (some "p".toList) "small".toList _ _ (by rfl) (by rfl) _).2
    ⟨fun e he => plain_of_optional (by rw [List.mem_singleton.1 he]; decide), by unfold Unquoted; decide⟩

/-- What the registry makes of a request for `p`. -/
def createP (extensions : List Text) : Except ControlPlaneError (PondRow × Registry) :=
  oneNode.createPond ⟨0, "7f".toList, none⟩ (some "p".toList) "small".toList extensions

/-- The request is accepted, with this list in the row. -/
def Accepts (extensions : List Text) (stored : Text) : Prop :=
  createP extensions = .ok (rowOf stored, ⟨oneNode.nodes, [rowOf stored]⟩)

/-- **What is loaded is what was asked for**: an extension with a statement of its own, one that is not allowed, two
that are read back from one, and a root that ends its literal. -/
theorem loads_what_it_is_told :
    Accepts ["spatial; SET threads=64".toList] "spatial; SET threads=64".toList ∧
    statements (loadText "spatial; SET threads=64".toList) =
      some [[kw "LOAD", kw "spatial"], setStatement "threads" (.number "64".toList)] ∧
    Accepts ["lance".toList] "lance".toList ∧ "lance".toList ∉ optionalExtensions ∧
    statements (loadText "lance".toList) = some [[kw "LOAD", kw "lance"]] ∧
    Accepts ["fts,inet".toList] "fts,inet".toList ∧
    parseCsv (rowOf "fts,inet".toList).extensions = ["fts".toList, "inet".toList] ∧
    (statements (attachText (locationFor ("/srv/o'brien".toList.map some) (oneNode.infoOf (rowOf []))))).map
      (·.map (·.take 2)) = some [[kw "ATTACH", .str "ducklake:duckdb:/srv/o".toList]] ∧
    ¬∀ (r r' : Registry) pl name tier extensions row, r.createPond pl name tier extensions = .ok (row, r') →
      validatePondName pl.pondId = .ok () → ∀ root, OpensAsIntended root (r'.infoOf row) extensions := by
  refine ⟨by rfl, by decide +kernel, by rfl, by decide, by decide +kernel, by rfl, by decide +kernel, by decide +kernel,
    ?_⟩
  intro h
  have hback := (h oneNode ⟨oneNode.nodes, [rowOf "fts,inet".toList]⟩ ⟨0, "7f".toList, none⟩ (some "p".toList)
    "small".toList ["fts,inet".toList] (rowOf "fts,inet".toList) (by rfl) (by rfl) []).readBack
  revert hback
  decide +kernel

end PondInstance

end Latiq.EngineDuckdb
