import Latiq.EngineDuckdb.DuckEngine
import Latiq.Library.SqlTemplate

/-!
# The statements of a catalog

`attachers.rs` writes the statements that attach an external catalog, from the parameters of the catalog and of the call.
Their values are strings and the alias is an identifier, with the quotes doubled; the name of a secret has the alias in
it as it is.

## The model

* `plan` — the statements, with `iceberg`, `ducklake` and `s3SecretLine`.
* `Setting` — a key with its value, as `CREATE SECRET` and `ATTACH` take them.
* `secretTokens`, `attachTokens`, `teardownTokens` — what the statements are to say.
* `IsStatement` — a text is one statement of these tokens.

## What is proved

* `plan_statements` — for an alias that is a word, each statement of a plan is one statement, of the tokens that the
  parameters ask for, whatever characters are in them.
-/

namespace Latiq.EngineDuckdb

open SqlLex
open SqlLex.Piece (text Apart Valid apart_append)

/-- The text is one statement, of these tokens: its strings and its quoted identifiers are these values. -/
def IsStatement (sql : Text) (tokens : List Piece) : Prop :=
  ∃ is seg, Lexes sql is ∧ segments is = [seg] ∧ seg.mapM Item.piece? = some tokens

/-- A text of pieces is a statement. -/
theorem isStatement_text {ps : List Piece} (hv : ∀ p ∈ ps, p.Valid) (h : Apart ps) (hne : ps.filter Piece.isToken ≠ []) :
    IsStatement (text ps) (ps.filter Piece.isToken) := by
  have htokens := Piece.mapM_piece? ps
  have hsemi : .punct ';' ∉ (ps.map Piece.item).filter fun i => !i.isGap := by
    intro hmem
    obtain ⟨p, hp, hitem⟩ := List.mem_map.1 (List.mem_of_mem_filter hmem)
    cases p with
    | sym c =>
      obtain rfl := Item.punct.inj hitem
      have hsym : ';' ∈ Piece.symbols := hv _ hp
      revert hsym
      decide
    | _ => cases hitem
  have hsplit := (RustStr.splitOn_eq_cons_replicate (n := 0)).2 ⟨(List.append_nil _).symm, hsemi⟩
  refine ⟨_, _, Piece.lexes_text hv h, ?_, htokens⟩
  rw [segments, hsplit]
  refine List.filter_cons_of_pos (decide_eq_true fun hnil => ?_)
  rw [hnil] at htokens
  exact hne (Option.some.inj htokens).symm

namespace Attachers

/-! ### The texts -/

/-- The parameters of a call. -/
abbrev Params := Text → Option Text

/-- A parameter that is not empty. -/
def Params.given (params : Params) (k : String) : Option Text := (params k.toList).filter (· ≠ [])

/-- `esc`. -/
def esc (v : Text) : Text := double '\'' v

/-- The host of an S3 endpoint, and whether it is reached by TLS. -/
def s3Endpoint (ep : Text) : Text × Text :=
  match dropPrefix? "http://".toList ep with
  | some rest => (rest, "false".toList)
  | none =>
    match dropPrefix? "https://".toList ep with
    | some rest => (rest, "true".toList)
    | none => (ep, "true".toList)

/-- `s3_secret_line`. -/
def s3SecretLine (alias_ : Text) (params : Params) : Option (Text × Text) := do
  let k ← params.given "s3_access_key"
  let s ← params.given "s3_secret_key"
  let name := "_latiq_".toList ++ alias_ ++ "_s3".toList
  let lines :=
    ["TYPE s3".toList, "KEY_ID '".toList ++ esc k ++ "'".toList, "SECRET '".toList ++ esc s ++ "'".toList,
      "URL_STYLE 'path'".toList] ++
    ((params.given "s3_region").map fun region => "REGION '".toList ++ esc region ++ "'".toList).toList ++
    ((params.given "s3_endpoint").map fun ep =>
      ["ENDPOINT '".toList ++ esc (s3Endpoint ep).1 ++ "'".toList, "USE_SSL ".toList ++ (s3Endpoint ep).2]).getD []
  some (name, "CREATE OR REPLACE SECRET ".toList ++ name ++ " (".toList ++ [',', ' '].intercalate lines ++ ")".toList)

/-- `AttachPlan`, with the name of the source. -/
structure NamedPlan extends AttachPlan where
  namespace_ : Text
  deriving DecidableEq, Repr

/-- `trim_end_matches('/')`. -/
def trimSlashes (t : Text) : Text := t.rdropWhile (· == '/')

/-- `iceberg`. -/
def iceberg (alias_ : Text) (params : Params) (load : List (Text × Text)) : Except EngineError NamedPlan :=
  match params.given "endpoint" with
  | none => .error (.missingParameter "iceberg catalog requires --set endpoint=<rest-url>".toList)
  | some endpoint =>
    let warehouse := (params.given "warehouse").getD "warehouse".toList
    let name := "_latiq_".toList ++ alias_ ++ "_iceberg".toList
    let (secrets, secretClause) :=
      match params.given "token" with
      | some tok =>
        ([(name, "CREATE OR REPLACE SECRET ".toList ++ name ++ " (TYPE iceberg, TOKEN '".toList ++ esc tok ++ "')".toList)],
          ", SECRET ".toList ++ name)
      | none => ([], ", AUTHORIZATION_TYPE none".toList)
    .ok {
      alias_
      load
      secrets := secrets ++ (s3SecretLine alias_ params).toList
      attach := "ATTACH '".toList ++ esc warehouse ++ "' AS ".toList ++ quoteIdent alias_ ++
        " (TYPE iceberg, ENDPOINT '".toList ++ esc endpoint ++ "'".toList ++ secretClause ++ ")".toList
      namespace_ := trimSlashes endpoint ++ '/' :: warehouse
    }

/-- `ducklake`. -/
def ducklake (alias_ : Text) (params : Params) (load : List (Text × Text)) : Except EngineError NamedPlan :=
  match params.given "metadata_path" with
  | none => .error (.missingParameter "ducklake catalog requires --set metadata_path=<catalog-db>".toList)
  | some metadata =>
    match params.given "data_path" with
    | none => .error (.missingParameter "ducklake catalog requires --set data_path=<data-dir-or-s3-uri>".toList)
    | some dataPath =>
      .ok {
        alias_
        load
        secrets := (s3SecretLine alias_ params).toList
        attach := "ATTACH 'ducklake:".toList ++ esc metadata ++ "' AS ".toList ++ quoteIdent alias_ ++
          " (DATA_PATH '".toList ++ esc dataPath ++ "', READ_ONLY)".toList
        namespace_ := "ducklake:".toList ++ metadata
      }

/-- The types of catalogs, with the extensions they need: `latiq_common::catalog::TYPES`. -/
def catalogTypes : List (Text × List Text) :=
  [("iceberg".toList, ["iceberg".toList, "httpfs".toList]), ("ducklake".toList, ["ducklake".toList, "httpfs".toList])]

/-- `plan`. -/
def plan (type_ alias_ : Text) (params : Params) : Except EngineError NamedPlan :=
  let load := ((catalogTypes.lookup type_).getD []).map fun e => (e, "LOAD ".toList ++ e ++ ";".toList)
  if type_ = "iceberg".toList then iceberg alias_ params load
  else if type_ = "ducklake".toList then ducklake alias_ params load
  else
    .error (.unsupportedParameter
      ("unsupported catalog type '".toList ++ type_ ++ "' (supported: iceberg, ducklake)".toList))

/-! ### What they are to say -/

/-- A key with its value, if it has one. -/
structure Setting where
  key : String
  value : Option Piece
  deriving DecidableEq, Repr

namespace Setting

def pieces (s : Setting) : List Piece :=
  .word s.key.toList ::
    match s.value with
    | none => []
    | some v => [.space, v]

/-- A value that may be behind its key. -/
def IsValue : Piece → Prop
  | .word w => (Piece.word w).Valid
  | .lit _ => True
  | _ => False

/-- The key is a word, and the value a string or a word. -/
structure Valid (s : Setting) : Prop where
  key : (Piece.word s.key.toList).Valid
  value : ∀ v, s.value = some v → IsValue v

end Setting

/-- Settings between parentheses. -/
def settingsPieces (ss : List Setting) : List Piece :=
  .sym '(' :: ([.sym ',', .space].intercalate (ss.map Setting.pieces) ++ [.sym ')'])

/-- Words with a space behind each. -/
def wordPieces (ws : List String) : List Piece := ws.flatMap fun w => [.word w.toList, .space]

/-- `CREATE OR REPLACE SECRET name (settings)`. -/
def secretPieces (name : Text) (ss : List Setting) : List Piece :=
  wordPieces ["CREATE", "OR", "REPLACE", "SECRET"] ++ .word name :: .space :: settingsPieces ss

/-- `ATTACH 'locator' AS "alias" (settings)`. -/
def attachPieces (locator alias_ : Text) (ss : List Setting) : List Piece :=
  wordPieces ["ATTACH"] ++ .lit locator :: .space :: (wordPieces ["AS"] ++ .ident alias_ :: .space :: settingsPieces ss)

/-- `DETACH "alias"`. -/
def detachPieces (alias_ : Text) : List Piece := wordPieces ["DETACH"] ++ [.ident alias_]

/-- `DROP SECRET IF EXISTS name`. -/
def dropSecretPieces (name : Text) : List Piece := wordPieces ["DROP", "SECRET", "IF", "EXISTS"] ++ [.word name]

/-- The name of the secret for S3, and of the one for Iceberg. -/
def secretName (alias_ : Text) (kind : String) : Text := "_latiq_".toList ++ alias_ ++ '_' :: kind.toList

/-- The settings of the secret for S3, if there is one. -/
def s3Settings (params : Params) : Option (List Setting) := do
  let k ← params.given "s3_access_key"
  let s ← params.given "s3_secret_key"
  some ([⟨"TYPE", some (.word "s3".toList)⟩, ⟨"KEY_ID", some (.lit k)⟩, ⟨"SECRET", some (.lit s)⟩,
      ⟨"URL_STYLE", some (.lit "path".toList)⟩] ++
    ((params.given "s3_region").map fun region => ⟨"REGION", some (.lit region)⟩).toList ++
    ((params.given "s3_endpoint").map fun ep =>
      [⟨"ENDPOINT", some (.lit (s3Endpoint ep).1)⟩, ⟨"USE_SSL", some (.word (s3Endpoint ep).2)⟩]).getD [])

/-- What a plan is to create and to attach. -/
structure Intent where
  secrets : List (Text × List Setting)
  locator : Text
  settings : List Setting
  deriving DecidableEq, Repr

/-- The secret for S3, with its name. -/
def s3Intent (alias_ : Text) (params : Params) : List (Text × List Setting) :=
  ((s3Settings params).map fun ss => (secretName alias_ "s3", ss)).toList

/-- An Iceberg catalog is a warehouse behind an endpoint. -/
def icebergIntent (alias_ : Text) (params : Params) : Option Intent :=
  (params.given "endpoint").map fun endpoint =>
    let name := secretName alias_ "iceberg"
    let token := params.given "token"
    { secrets := (token.map fun tok => (name, [⟨"TYPE", some (.word "iceberg".toList)⟩, ⟨"TOKEN", some (.lit tok)⟩])).toList ++
        s3Intent alias_ params
      locator := (params.given "warehouse").getD "warehouse".toList
      settings := [⟨"TYPE", some (.word "iceberg".toList)⟩, ⟨"ENDPOINT", some (.lit endpoint)⟩,
        if token.isSome then ⟨"SECRET", some (.word name)⟩ else ⟨"AUTHORIZATION_TYPE", some (.word "none".toList)⟩] }

/-- A DuckLake catalog is its metadata with its data. -/
def ducklakeIntent (alias_ : Text) (params : Params) : Option Intent := do
  let metadata ← params.given "metadata_path"
  let dataPath ← params.given "data_path"
  some ⟨s3Intent alias_ params, "ducklake:".toList ++ metadata, [⟨"DATA_PATH", some (.lit dataPath)⟩, ⟨"READ_ONLY", none⟩]⟩

/-- What a call asks for. -/
def intent (type_ alias_ : Text) (params : Params) : Option Intent :=
  if type_ = "iceberg".toList then icebergIntent alias_ params
  else if type_ = "ducklake".toList then ducklakeIntent alias_ params
  else none

/-! ### The texts are texts of pieces -/

theorem text_intercalate (pss : List (List Piece)) :
    text ([.sym ',', .space].intercalate pss) = [',', ' '].intercalate (pss.map text) := by
  induction pss with
  | nil => rfl
  | cons ps pss ih =>
    cases pss with
    | nil => simp
    | cons qs pss =>
      rw [List.intercalate_cons_cons, Piece.text_append, Piece.text_append, ih]
      simp only [List.map_cons, List.intercalate_cons_cons]
      rfl

/-- A value behind its key. -/
theorem text_lit (key : String) (v : Text) :
    text (Setting.pieces ⟨key, some (.lit v)⟩) = key.toList ++ " '".toList ++ esc v ++ "'".toList := by
  simp [Setting.pieces, Piece.text_cons, Piece.item, Item.render, esc]

theorem text_word (key : String) (w : Text) : text (Setting.pieces ⟨key, some (.word w)⟩) = key.toList ++ " ".toList ++ w := by
  simp [Setting.pieces, Piece.text_cons, Piece.item, Item.render]

theorem text_secret (name : Text) (ss : List Setting) :
    text (secretPieces name ss) = "CREATE OR REPLACE SECRET ".toList ++ name ++ " (".toList ++
      [',', ' '].intercalate (ss.map fun s => text s.pieces) ++ ")".toList := by
  have hmap : (ss.map Setting.pieces).map text = ss.map fun s => text s.pieces := List.map_map ..
  simp only [secretPieces, settingsPieces, wordPieces, Piece.text_cons, Piece.text_append, text_intercalate, hmap]
  simp [Piece.text_cons, Piece.item, Item.render]

theorem text_attach (locator alias_ : Text) (ss : List Setting) :
    text (attachPieces locator alias_ ss) = "ATTACH '".toList ++ esc locator ++ "' AS ".toList ++ quoteIdent alias_ ++
      " (".toList ++ [',', ' '].intercalate (ss.map fun s => text s.pieces) ++ ")".toList := by
  have hmap : (ss.map Setting.pieces).map text = ss.map fun s => text s.pieces := List.map_map ..
  simp only [attachPieces, settingsPieces, wordPieces, Piece.text_cons, Piece.text_append, text_intercalate, hmap]
  simp [Piece.text_cons, Piece.item, Item.render, esc, quoteIdent]

theorem text_detach (alias_ : Text) : text (detachPieces alias_) = "DETACH ".toList ++ quoteIdent alias_ := by
  simp [detachPieces, wordPieces, Piece.text_cons, Piece.item, Item.render, quoteIdent]

theorem text_dropSecret (name : Text) : text (dropSecretPieces name) = "DROP SECRET IF EXISTS ".toList ++ name := by
  simp [dropSecretPieces, wordPieces, Piece.text_cons, Piece.item, Item.render]

theorem secretName_s3 (alias_ : Text) : "_latiq_".toList ++ alias_ ++ "_s3".toList = secretName alias_ "s3" := by
  have hkind : "_s3".toList = '_' :: "s3".toList := rfl
  rw [hkind]
  rfl

theorem secretName_iceberg (alias_ : Text) :
    "_latiq_".toList ++ alias_ ++ "_iceberg".toList = secretName alias_ "iceberg" := by
  have hkind : "_iceberg".toList = '_' :: "iceberg".toList := rfl
  rw [hkind]
  rfl

/-- `s3_secret_line` writes the secret for S3. -/
theorem s3SecretLine_eq (alias_ : Text) (params : Params) :
    (s3SecretLine alias_ params).toList = (s3Intent alias_ params).map fun s => (s.1, text (secretPieces s.1 s.2)) := by
  unfold s3SecretLine s3Intent s3Settings
  rw [secretName_s3]
  cases hk : params.given "s3_access_key" with
  | none => rfl
  | some k =>
    cases hs : params.given "s3_secret_key" with
    | none => rfl
    | some s =>
      simp only [Option.bind_eq_bind, Option.bind_some, Option.map_some, Option.toList_some, List.map_cons, List.map_nil,
        text_secret]
      have hpath : esc ['p', 'a', 't', 'h'] = ['p', 'a', 't', 'h'] := rfl
      congr 6
      cases params.given "s3_region" <;> cases params.given "s3_endpoint" <;> simp [text_lit, text_word, hpath]

/-- **The texts of a plan** are of the pieces that the call asks for. -/
theorem plan_eq {type_ alias_ : Text} {params : Params} {p : NamedPlan} (h : plan type_ alias_ params = .ok p) :
    ∃ n, intent type_ alias_ params = some n ∧ p.alias_ = alias_ ∧
      p.secrets = n.secrets.map (fun s => (s.1, text (secretPieces s.1 s.2))) ∧
      p.attach = text (attachPieces n.locator alias_ n.settings) := by
  unfold plan at h
  unfold intent
  dsimp only at h
  split_ifs at h with hiceberg hducklake
  · rw [if_pos hiceberg]
    unfold iceberg at h
    rw [secretName_iceberg] at h
    unfold icebergIntent
    cases hendpoint : params.given "endpoint" with
    | none =>
      rw [hendpoint] at h
      cases h
    | some endpoint =>
      rw [hendpoint] at h
      refine ⟨_, rfl, ?_⟩
      generalize secretName alias_ "iceberg" = name at h ⊢
      cases htoken : params.given "token" with
      | none =>
        rw [htoken] at h
        cases h
        refine ⟨rfl, s3SecretLine_eq alias_ params, ?_⟩
        simp [text_attach, text_lit, text_word]
      | some tok =>
        rw [htoken] at h
        cases h
        refine ⟨rfl, ?_, ?_⟩
        · dsimp only
          rw [s3SecretLine_eq, List.map_append]
          simp [text_secret, text_lit, text_word]
        · simp [text_attach, text_lit, text_word]
  · rw [if_neg hiceberg, if_pos hducklake]
    unfold ducklake at h
    unfold ducklakeIntent
    cases hmetadata : params.given "metadata_path" with
    | none =>
      rw [hmetadata] at h
      cases h
    | some metadata =>
      rw [hmetadata] at h
      cases hdata : params.given "data_path" with
      | none =>
        rw [hdata] at h
        cases h
      | some dataPath =>
        rw [hdata] at h
        cases h
        refine ⟨_, rfl, rfl, s3SecretLine_eq alias_ params, ?_⟩
        have hlocator : esc ("ducklake:".toList ++ metadata) = "ducklake:".toList ++ esc metadata := by
          rw [esc, double, List.flatMap_append]
          rfl
        have hbare : text (Setting.pieces ⟨"READ_ONLY", none⟩) = "READ_ONLY".toList := rfl
        simp only [text_attach, hlocator, List.map_cons, List.map_nil, text_lit, hbare]
        simp

/-! ### The pieces are statements -/

theorem Setting.valid_pieces {s : Setting} (h : s.Valid) : ∀ p ∈ s.pieces, p.Valid := by
  obtain ⟨key, value⟩ := s
  obtain ⟨hkey, hvalue⟩ := h
  cases value with
  | none => exact List.forall_mem_singleton.2 hkey
  | some v =>
    have hv : v.Valid := by
      cases v with
      | word w => exact hvalue _ rfl
      | lit v => trivial
      | _ => exact absurd (hvalue _ rfl) id
    intro p hp
    simp only [Setting.pieces, List.mem_cons, List.not_mem_nil, or_false] at hp
    rcases hp with rfl | rfl | rfl
    · exact hkey
    · trivial
    · exact hv

theorem Setting.apart_pieces (s : Setting) : Apart s.pieces := by
  obtain ⟨key, _ | v⟩ := s
  · exact .singleton _
  · exact Piece.apart_word _ (.singleton v)

theorem valid_settings {ss : List Setting} (h : ∀ s ∈ ss, s.Valid) : ∀ p ∈ settingsPieces ss, p.Valid := by
  have hsym (c : Char) (hc : c ∈ Piece.symbols) : (Piece.sym c).Valid := hc
  have hinner : ∀ p ∈ [Piece.sym ',', .space].intercalate (ss.map Setting.pieces), p.Valid := by
    induction ss with
    | nil => nofun
    | cons s ss ih =>
      have hs := Setting.valid_pieces (h s List.mem_cons_self)
      cases ss with
      | nil => simpa using hs
      | cons s' ss =>
        rw [List.map_cons, List.map_cons, List.intercalate_cons_cons, ← List.map_cons]
        intro p hp
        simp only [List.mem_append, List.mem_cons, List.not_mem_nil, or_false] at hp
        rcases hp with (hp | rfl | rfl) | hp
        · exact hs p hp
        · exact hsym ',' (by decide)
        · trivial
        · exact ih (fun s hs => h s (List.mem_cons_of_mem _ hs)) p hp
  intro p hp
  simp only [settingsPieces, List.mem_cons, List.mem_append, List.not_mem_nil, or_false] at hp
  rcases hp with rfl | hp | rfl
  · exact hsym '(' (by decide)
  · exact hinner p hp
  · exact hsym ')' (by decide)

theorem apart_settings (ss : List Setting) : Apart (settingsPieces ss) := by
  have hinner : Apart ([Piece.sym ',', .space].intercalate (ss.map Setting.pieces)) := by
    induction ss with
    | nil => exact .nil
    | cons s ss ih =>
      cases ss with
      | nil => simpa using s.apart_pieces
      | cons s' ss =>
        rw [List.map_cons, List.map_cons, List.intercalate_cons_cons, List.append_assoc, ← List.map_cons]
        exact apart_append s.apart_pieces
          (Piece.apart_cons (Piece.sym_apart ',') (Piece.apart_cons Piece.space_apart ih)) fun p => Piece.apart_sym p ','
  exact Piece.apart_cons (Piece.sym_apart '(') (apart_append hinner (.singleton _) fun p => Piece.apart_sym p ')')

theorem valid_words {ws : List String} (hws : ∀ w ∈ ws, (Piece.word w.toList).Valid) {ps : List Piece}
    (hps : ∀ p ∈ ps, p.Valid) : ∀ p ∈ wordPieces ws ++ ps, p.Valid := by
  intro p hp
  rcases List.mem_append.1 hp with hp | hp
  · obtain ⟨w, hw, hp⟩ := List.mem_flatMap.1 hp
    simp only [List.mem_cons, List.not_mem_nil, or_false] at hp
    rcases hp with rfl | rfl
    · exact hws w hw
    · trivial
  · exact hps p hp

theorem apart_words (ws : List String) {ps : List Piece} (hps : Apart ps) : Apart (wordPieces ws ++ ps) := by
  induction ws with
  | nil => exact hps
  | cons w ws ih => exact Piece.apart_word _ ih

/-- The tokens among the pieces. -/
def tokens (ps : List Piece) : List Piece := ps.filter Piece.isToken

theorem isStatement_secret {name : Text} (hname : (Piece.word name).Valid) {ss : List Setting} (hss : ∀ s ∈ ss, s.Valid) :
    IsStatement (text (secretPieces name ss)) (tokens (secretPieces name ss)) := by
  refine isStatement_text (valid_words (by decide) ?_) (apart_words _ (Piece.apart_word _ (apart_settings ss))) ?_
  · intro p hp
    simp only [List.mem_cons] at hp
    rcases hp with rfl | rfl | hp
    · exact hname
    · trivial
    · exact valid_settings hss p hp
  · simp [secretPieces, wordPieces, Piece.isToken]

theorem isStatement_attach (locator alias_ : Text) {ss : List Setting} (hss : ∀ s ∈ ss, s.Valid) :
    IsStatement (text (attachPieces locator alias_ ss)) (tokens (attachPieces locator alias_ ss)) := by
  have hsettings := valid_settings hss
  refine isStatement_text (valid_words (by decide) ?_) (apart_words _ ?_) ?_
  · intro p hp
    simp only [List.mem_cons] at hp
    rcases hp with rfl | rfl | hp
    · trivial
    · trivial
    · refine valid_words (by decide) ?_ p hp
      intro q hq
      simp only [List.mem_cons] at hq
      rcases hq with rfl | rfl | hq
      · trivial
      · trivial
      · exact hsettings q hq
  · refine List.isChain_cons_cons.2 ⟨rfl, Piece.apart_cons Piece.space_apart (apart_words _ ?_)⟩
    exact List.isChain_cons_cons.2 ⟨rfl, Piece.apart_cons Piece.space_apart (apart_settings ss)⟩
  · simp [attachPieces, wordPieces, Piece.isToken]

theorem isStatement_detach (alias_ : Text) : IsStatement (text (detachPieces alias_)) (tokens (detachPieces alias_)) :=
  isStatement_text (valid_words (by decide) (List.forall_mem_singleton.2 trivial)) (apart_words _ (.singleton _))
    (by simp [detachPieces, wordPieces, Piece.isToken])

theorem isStatement_dropSecret {name : Text} (hname : (Piece.word name).Valid) :
    IsStatement (text (dropSecretPieces name)) (tokens (dropSecretPieces name)) :=
  isStatement_text (valid_words (by decide) (List.forall_mem_singleton.2 hname)) (apart_words _ (.singleton _))
    (by simp [dropSecretPieces, wordPieces, Piece.isToken])

/-! ### What is asked for is well formed -/

theorem valid_secretName {alias_ : Text} (h : alias_.all isWordChar = true) {kind : String}
    (hkind : kind.toList.all isWordChar = true) : (Piece.word (secretName alias_ kind)).Valid := by
  have hunder : isWordChar '_' = true := rfl
  have hprefix : "_latiq_".toList.all isWordChar = true := by decide
  unfold secretName
  constructor
  · simp only [String.reduceToList, List.cons_append]
    rfl
  · rw [List.all_append, List.all_append, List.all_cons, hprefix, h, hunder, hkind]
    rfl

theorem valid_lit {key : String} (hkey : (Piece.word key.toList).Valid) (v : Text) : Setting.Valid ⟨key, some (.lit v)⟩ := by
  refine ⟨hkey, ?_⟩
  rintro _ ⟨⟩
  trivial

theorem valid_bare {key : String} (hkey : (Piece.word key.toList).Valid) {w : Text} (hw : (Piece.word w).Valid) :
    Setting.Valid ⟨key, some (.word w)⟩ := by
  refine ⟨hkey, ?_⟩
  rintro _ ⟨⟩
  exact hw

theorem s3Endpoint_ssl (ep : Text) : (Piece.word (s3Endpoint ep).2).Valid := by
  unfold s3Endpoint
  split
  · exact ⟨rfl, rfl⟩
  · split <;> exact ⟨rfl, rfl⟩

theorem valid_s3Settings {params : Params} {ss : List Setting} (h : s3Settings params = some ss) : ∀ s ∈ ss, s.Valid := by
  simp only [s3Settings, Option.bind_eq_bind, Option.bind_eq_some_iff, Option.some.injEq] at h
  obtain ⟨k, -, s, -, rfl⟩ := h
  intro x hx
  simp only [List.mem_append, List.mem_cons, List.not_mem_nil, or_false, Option.mem_toList, Option.map_eq_some_iff] at hx
  rcases hx with ((rfl | rfl | rfl | rfl) | ⟨r, -, rfl⟩) | hx
  · exact valid_bare ⟨rfl, rfl⟩ ⟨rfl, rfl⟩
  · exact valid_lit ⟨rfl, rfl⟩ k
  · exact valid_lit ⟨rfl, rfl⟩ s
  · exact valid_lit ⟨rfl, rfl⟩ _
  · exact valid_lit ⟨rfl, rfl⟩ r
  · cases hep : params.given "s3_endpoint" with
    | none =>
      rw [hep] at hx
      cases hx
    | some ep =>
      rw [hep] at hx
      simp only [Option.map_some, Option.getD_some, List.mem_cons, List.not_mem_nil, or_false] at hx
      rcases hx with rfl | rfl
      · exact valid_lit ⟨rfl, rfl⟩ _
      · exact valid_bare ⟨rfl, rfl⟩ (s3Endpoint_ssl ep)

/-- An intent whose names are words. -/
structure Intent.Valid (n : Intent) : Prop where
  names : ∀ s ∈ n.secrets, (Piece.word s.1).Valid
  secrets : ∀ s ∈ n.secrets, ∀ x ∈ s.2, x.Valid
  settings : ∀ x ∈ n.settings, x.Valid

theorem valid_s3Intent {alias_ : Text} (halias : alias_.all isWordChar = true) {params : Params} :
    ∀ s ∈ s3Intent alias_ params, (Piece.word s.1).Valid ∧ ∀ x ∈ s.2, x.Valid := by
  intro s hs
  obtain ⟨ss, hss, rfl⟩ := Option.map_eq_some_iff.1 (Option.mem_toList.1 hs)
  exact ⟨valid_secretName halias rfl, valid_s3Settings hss⟩

theorem valid_intent {type_ alias_ : Text} (halias : alias_.all isWordChar = true) {params : Params} {n : Intent}
    (h : intent type_ alias_ params = some n) : n.Valid := by
  have hs3 := @valid_s3Intent alias_ halias params
  unfold intent at h
  split_ifs at h
  · obtain ⟨endpoint, -, rfl⟩ := Option.map_eq_some_iff.1 h
    have hname : (Piece.word (secretName alias_ "iceberg")).Valid := valid_secretName halias rfl
    have htoken : ∀ s ∈ ((params.given "token").map fun tok => (secretName alias_ "iceberg",
        [(⟨"TYPE", some (.word "iceberg".toList)⟩ : Setting), ⟨"TOKEN", some (.lit tok)⟩])).toList,
        (Piece.word s.1).Valid ∧ ∀ x ∈ s.2, x.Valid := by
      intro s hs
      obtain ⟨tok, -, rfl⟩ := Option.map_eq_some_iff.1 (Option.mem_toList.1 hs)
      exact ⟨hname, List.forall_mem_cons.2 ⟨valid_bare ⟨rfl, rfl⟩ ⟨rfl, rfl⟩,
        List.forall_mem_singleton.2 (valid_lit ⟨rfl, rfl⟩ tok)⟩⟩
    have hsecrets := fun s hs => (List.mem_append.1 hs).elim (htoken s) (hs3 s)
    refine ⟨fun s hs => (hsecrets s hs).1, fun s hs => (hsecrets s hs).2, ?_⟩
    intro x hx
    simp only [List.mem_cons, List.not_mem_nil, or_false] at hx
    rcases hx with rfl | rfl | rfl
    · exact valid_bare ⟨rfl, rfl⟩ ⟨rfl, rfl⟩
    · exact valid_lit ⟨rfl, rfl⟩ endpoint
    · split_ifs
      · exact valid_bare ⟨rfl, rfl⟩ hname
      · exact valid_bare ⟨rfl, rfl⟩ ⟨rfl, rfl⟩
  · simp only [ducklakeIntent, Option.bind_eq_bind, Option.bind_eq_some_iff, Option.some.injEq] at h
    obtain ⟨metadata, -, dataPath, -, rfl⟩ := h
    refine ⟨fun s hs => (hs3 s hs).1, fun s hs => (hs3 s hs).2, ?_⟩
    refine List.forall_mem_cons.2 ⟨valid_lit ⟨rfl, rfl⟩ dataPath, List.forall_mem_singleton.2 ⟨⟨rfl, rfl⟩, nofun⟩⟩

/-- **The statements of a plan**, for an alias that is a word: each text is one statement, and says what the parameters
ask for. -/
theorem plan_statements {type_ alias_ : Text} (halias : alias_.all isWordChar = true) {params : Params} {p : NamedPlan}
    (h : plan type_ alias_ params = .ok p) : ∃ n, intent type_ alias_ params = some n ∧
      List.Forall₂ (fun secret s => secret.1 = s.1 ∧ IsStatement secret.2 (tokens (secretPieces s.1 s.2)))
        p.secrets n.secrets ∧
      IsStatement p.attach (tokens (attachPieces n.locator alias_ n.settings)) ∧
      List.Forall₂ IsStatement p.teardown
        (tokens (detachPieces alias_) :: n.secrets.map fun s => tokens (dropSecretPieces s.1)) := by
  obtain ⟨n, hn, halias_, hsecrets, hattach⟩ := plan_eq h
  obtain ⟨hnames, hvalid, hsettings⟩ := valid_intent halias hn
  refine ⟨n, hn, ?_, ?_, ?_⟩
  · rw [hsecrets, List.forall₂_map_left_iff, List.forall₂_same]
    exact fun s hs => ⟨rfl, isStatement_secret (hnames s hs) (hvalid s hs)⟩
  · rw [hattach]
    exact isStatement_attach n.locator alias_ hsettings
  · rw [AttachPlan.teardown, halias_, ← text_detach, hsecrets, List.map_map]
    refine .cons (isStatement_detach alias_) ?_
    rw [List.forall₂_map_left_iff, List.forall₂_map_right_iff, List.forall₂_same]
    intro s hs
    have hdrop := isStatement_dropSecret (hnames s hs)
    rw [text_dropSecret] at hdrop
    exact hdrop

end Attachers

end Latiq.EngineDuckdb
