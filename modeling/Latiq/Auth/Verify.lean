import Latiq.Auth.Jwks
import Latiq.Common.PondOptions
import Latiq.EngineDuckdb.Exec
import Mathlib.Data.List.Nodup

/-!
# Verifying a token

`Verifier::verify` turns a bearer token into a verified identity. The issuer that a token claims chooses the cache in which its
key is looked up; then the signature is checked under that key, with the algorithm of the header, and the claims against the
audience of the deployment and that issuer.

## The model

* `Jwt` — what is used of `jsonwebtoken`, of base64 and of JSON; `Jwt.Checks` is what `decode` promises, `Passes` what a
  `Validation` asks for.
* `Verifier` — the audience and the issuers, which `Verifier.new` has normalised; it carries that they are trimmed and distinct.
* `Verifier.opened`, `Verifier.closed` — `verify` up to the lookup of the key, and behind it.
* `Service`, `ServiceAct` — any number of verifications, with the cache of each issuer (`JwksPolicy.step`).

## What is proved

* `verify_sound` — in every run each identity that is returned is of a token whose signature verifies under a key that the
  last document fetched for the issuer of the token listed, and whose claims pass.
-/

namespace Latiq.Auth

open RustStr (Text trim trim_trim)
open Latiq.Common (byteLen)
open Latiq.EngineDuckdb (Identity)

/-! ### What is used of the libraries -/

/-- `jsonwebtoken::Header`, as far as it is read. -/
structure Header where
  alg : Algorithm
  kid : Option Text
  deriving DecidableEq, Repr

/-- A claim as `jsonwebtoken` reads it. -/
inductive TryParse (α : Type) where
  | parsed (a : α)
  | failedToParse
  | notPresent
  deriving DecidableEq, Repr

/-- Whether a claim is there, and as it is to be. -/
def TryParse.isParsed {α : Type} : TryParse α → Bool
  | .parsed _ => true
  | _ => false

/-- An issuer or an audience: one, or a list of them. -/
inductive OneOrMany where
  | one (value : Text)
  | many (values : List Text)
  deriving DecidableEq, Repr

/-- Its members. -/
def OneOrMany.values : OneOrMany → List Text
  | .one value => [value]
  | .many values => values

/-- The claims of a token. -/
structure Payload where
  iss : TryParse OneOrMany
  aud : TryParse OneOrMany
  exp : TryParse ℕ
  nbf : TryParse ℕ
  sub : TryParse Text
  deriving DecidableEq, Repr

/-- Whether a claim that is required is there. A name that is not known is not looked for. -/
def Payload.has (c : Payload) (name : String) : Bool :=
  if name = "exp" then c.exp.isParsed
  else if name = "sub" then c.sub.isParsed
  else if name = "iss" then c.iss.isParsed
  else if name = "aud" then c.aud.isParsed
  else if name = "nbf" then c.nbf.isParsed
  else true

/-- `jsonwebtoken::Validation`, as far as it is set. -/
structure Validation where
  algorithm : Algorithm
  leeway : ℕ
  validateExp : Bool
  validateNbf : Bool
  validateAud : Bool
  aud : Option (List Text)
  iss : Option (List Text)
  requiredSpecClaims : List String
  deriving DecidableEq, Repr

/-- `Validation::new`. -/
def Validation.new (algorithm : Algorithm) : Validation :=
  ⟨algorithm, 60, true, false, true, none, none, ["exp"]⟩

/-- What a validation asks of the claims, at a time. -/
structure Passes (v : Validation) (now : ℕ) (c : Payload) : Prop where
  required : ∀ name ∈ v.requiredSpecClaims, c.has name
  exp : v.validateExp → ∀ e, c.exp = .parsed e → now ≤ e + v.leeway
  nbf : v.validateNbf → ∀ n, c.nbf = .parsed n → n ≤ now + v.leeway
  iss : ∀ allowed, v.iss = some allowed → ∀ i, c.iss = .parsed i → ∃ x ∈ i.values, x ∈ allowed
  aud : v.validateAud → ∀ a, c.aud = .parsed a → ∃ allowed, v.aud = some allowed ∧ ∃ x ∈ a.values, x ∈ allowed

/-- What is used of `jsonwebtoken`, base64 and JSON. -/
structure Jwt (κ : Type) where
  decodeHeader : Text → Except Text Header
  base64 : Text → Except Text (List UInt8)
  fromSlice : List UInt8 → Except Text Payload
  /-- `decode`, with the clock: the subject among the claims. -/
  decode : Text → κ → Validation → ℕ → Except Text (Option Text)

/-- The claims of a token, without a look at its signature: of three segments the second. -/
def Jwt.payload {κ : Type} (jwt : Jwt κ) (token : Text) (c : Payload) : Prop :=
  ∃ header payload signature bytes, token.splitOn '.' = [header, payload, signature] ∧
    jwt.base64 payload = .ok bytes ∧ jwt.fromSlice bytes = .ok c

/-- **What `decode` promises**: the signature verifies under the key with the algorithm of the validation, and the claims pass
what it asks for. -/
structure Jwt.Checks {κ : Type} (jwt : Jwt κ) (Signed : Text → κ → Algorithm → Prop) : Prop where
  signed : ∀ token key v now sub, jwt.decode token key v now = .ok sub → Signed token key v.algorithm
  passes : ∀ token key v now sub, jwt.decode token key v now = .ok sub →
    ∃ c, jwt.payload token c ∧ Passes v now c ∧ ∀ s, sub = some s → c.sub = .parsed s

/-! ### The verifier -/

/-- `Algorithm`, as `Debug` prints it. -/
def Algorithm.debug : Algorithm → Text
  | .hs256 => "HS256".toList
  | .hs384 => "HS384".toList
  | .hs512 => "HS512".toList
  | .es256 => "ES256".toList
  | .es384 => "ES384".toList
  | .rs256 => "RS256".toList
  | .rs384 => "RS384".toList
  | .rs512 => "RS512".toList
  | .ps256 => "PS256".toList
  | .ps384 => "PS384".toList
  | .ps512 => "PS512".toList
  | .edDSA => "EdDSA".toList

/-- `ALLOWED_ALGS`. -/
def allowedAlgs : List Algorithm := [.rs256, .rs384, .rs512, .ps256, .ps384, .ps512, .es256, .es384, .edDSA]

/-- `MAX_TOKEN_BYTES`. -/
def maxTokenBytes : ℕ := 8 * 1024

/-- `CLOCK_SKEW_LEEWAY_SECS`. -/
def clockSkewLeewaySecs : ℕ := 30

/-- `IssuerConfig`. -/
structure IssuerConfig where
  issuer : Text
  jwksUri : Option Text
  deriving DecidableEq, Repr

/-- `AuthConfig`. -/
structure AuthConfig where
  audience : Text
  issuers : List IssuerConfig
  allowInsecureJwks : Bool
  deriving DecidableEq, Repr

/-- `discover_uri`. -/
def discoverUri (issuer : Text) : Text :=
  issuer.rdropWhile (· = '/') ++ "/protocol/openid-connect/certs".toList

/-- A verifier, with the name of each issuer and the address of its keys. -/
structure Verifier where
  audience : Text
  issuers : List (Text × Text)
  trimmed : ∀ i ∈ issuers, trim i.1 = i.1
  distinct : (issuers.map Prod.fst).Nodup
  audience_ne : audience ≠ []

section New

variable (checkedJwksUri : Text → Bool → Except AuthError Text) (allowInsecure : Bool)

/-- The address of the keys of an issuer: the one that is configured, if it is not blank. -/
def jwksUriOf (name : Text) (jwksUri : Option Text) : Text :=
  match jwksUri.map trim with
  | some (c :: u) => c :: u
  | _ => discoverUri name

/-- One turn of the loop of `Verifier::new`. -/
def newIssuer (known : List (Text × Text)) (cfg : IssuerConfig) : Except AuthError (List (Text × Text)) :=
  let name := trim cfg.issuer
  if name = [] then .error (.invalid "issuer identifier must not be empty".toList)
  else if known.any fun k => k.1 = name then
    .error (.invalid ("issuer '".toList ++ name ++ "' is configured more than once".toList))
  else (checkedJwksUri (jwksUriOf name cfg.jwksUri) allowInsecure).map fun uri => known ++ [(name, uri)]

/-- The loop of `Verifier::new`. -/
def newIssuers (cfgs : List IssuerConfig) : Except AuthError (List (Text × Text)) :=
  cfgs.foldlM (newIssuer checkedJwksUri allowInsecure) []

/-- Issuers with trimmed and distinct names. -/
def Normal (issuers : List (Text × Text)) : Prop := (∀ i ∈ issuers, trim i.1 = i.1) ∧ (issuers.map Prod.fst).Nodup

variable {checkedJwksUri allowInsecure}

theorem bind_ok {ε α β : Type} {x : Except ε α} {f : α → Except ε β} {b : β} (h : x >>= f = .ok b) :
    ∃ a, x = .ok a ∧ f a = .ok b := by
  cases x with
  | error e => cases h
  | ok a => exact ⟨a, rfl, h⟩

theorem map_ok {ε α β : Type} {x : Except ε α} {f : α → β} {b : β} (h : x.map f = .ok b) : ∃ a, x = .ok a ∧ f a = b := by
  cases x with
  | error e => cases h
  | ok a => exact ⟨a, rfl, Except.ok.inj h⟩

theorem newIssuer_normal {known issuers : List (Text × Text)} {cfg : IssuerConfig} (hn : Normal known)
    (h : newIssuer checkedJwksUri allowInsecure known cfg = .ok issuers) : Normal issuers := by
  unfold newIssuer at h
  dsimp only at h
  split_ifs at h with hempty hknown
  · obtain ⟨uri, -, rfl⟩ := map_ok h
    constructor
    · intro i hi
      rcases List.mem_append.1 hi with hi | hi
      · exact hn.1 i hi
      · rw [List.mem_singleton.1 hi]
        exact trim_trim _
    · rw [List.map_append, List.nodup_append]
      refine ⟨hn.2, List.nodup_singleton _, ?_⟩
      rintro a ha b hb rfl
      obtain ⟨k, hk, hka⟩ := List.mem_map.1 ha
      refine hknown (List.any_eq_true.2 ⟨k, hk, decide_eq_true ?_⟩)
      rw [hka]
      exact List.mem_singleton.1 hb

theorem newIssuers_normal {cfgs : List IssuerConfig} {issuers : List (Text × Text)}
    (h : newIssuers checkedJwksUri allowInsecure cfgs = .ok issuers) : Normal issuers := by
  suffices hgen : ∀ (cfgs : List IssuerConfig) (known : List (Text × Text)), Normal known →
      cfgs.foldlM (newIssuer checkedJwksUri allowInsecure) known = .ok issuers → Normal issuers from
    hgen cfgs [] ⟨nofun, List.nodup_nil⟩ h
  intro cfgs
  induction cfgs with
  | nil =>
    intro known hn h
    cases h
    exact hn
  | cons cfg cfgs ih =>
    intro known hn h
    rw [List.foldlM_cons] at h
    obtain ⟨next, hnext, h⟩ := bind_ok h
    exact ih next (newIssuer_normal hn hnext) h

end New

/-- `Verifier::new`. -/
def Verifier.new (checkedJwksUri : Text → Bool → Except AuthError Text) (cfg : AuthConfig) : Except AuthError Verifier :=
  if haud : trim cfg.audience = [] then
    .error (.invalid ("auth audience must not be empty: without it any token minted for any service " ++
      "would be accepted").toList)
  else if cfg.issuers.isEmpty then .error (.invalid "auth requires at least one configured issuer".toList)
  else
    match h : newIssuers checkedJwksUri cfg.allowInsecureJwks cfg.issuers with
    | .error e => .error e
    | .ok issuers => .ok ⟨trim cfg.audience, issuers, (newIssuers_normal h).1, (newIssuers_normal h).2, haud⟩

/-- `Identity::verified`. -/
def verifiedIdentity (subject issuer : Text) (claimedAgent : Option Text) : Identity :=
  let agentId := match claimedAgent.map trim with
    | some (c :: s) => c :: s
    | _ => trim subject
  ⟨agentId, trim subject, trim issuer, true⟩

/-- What `verify` knows of a token when it looks its key up. -/
structure Opened where
  /-- The token, trimmed. -/
  token : Text
  alg : Algorithm
  kid : Text
  /-- The place of its issuer. -/
  issuer : ℕ
  deriving DecidableEq, Repr

namespace Verifier

variable {κ : Type} (v : Verifier) (jwt : Jwt κ)

/-- `unverified_issuer`. -/
def unverifiedIssuer (token : Text) : Except AuthError Text :=
  match token.splitOn '.' with
  | [_, payload, _] =>
    match jwt.base64 payload with
    | .error e => .error (.malformed ("token payload is not base64url: ".toList ++ e))
    | .ok bytes =>
      match jwt.fromSlice bytes with
      | .error e => .error (.malformed ("token payload is not JSON claims: ".toList ++ e))
      | .ok c =>
        match c.iss with
        | .parsed (.one iss) => .ok iss
        | .notPresent => .error (.malformed "token has no 'iss' claim, so no key set can be chosen".toList)
        | _ => .error (.malformed "token payload is not JSON claims: invalid type".toList)
  | _ => .error (.malformed "token is not a three-segment JWS".toList)

/-- `verify`, up to where the key is looked up. -/
def opened (raw : Text) : Except AuthError Opened :=
  let token := trim raw
  if token = [] then .error .missing
  else if maxTokenBytes < byteLen token then
    .error (.malformed ("token is ".toList ++ (Nat.repr (byteLen token)).toList ++ " bytes, over the ".toList ++
      (Nat.repr maxTokenBytes).toList ++ "-byte limit".toList))
  else
    match jwt.decodeHeader token with
    | .error e => .error (.malformed ("unreadable token header: ".toList ++ e))
    | .ok header =>
      if header.alg ∉ allowedAlgs then
        .error (.invalid ("token algorithm ".toList ++ header.alg.debug ++ " is not accepted".toList))
      else
        match header.kid with
        | none => .error (.malformed "token header has no 'kid', so no signing key can be pinned".toList)
        | some kid =>
          match unverifiedIssuer jwt token with
          | .error e => .error e
          | .ok claimed =>
            match v.issuers.findIdx? fun i => i.1 = claimed with
            | none => .error (.invalid "token issuer is not configured for this deployment".toList)
            | some issuer => .ok ⟨token, header.alg, kid, issuer⟩

/-- The validation of a token of an issuer. -/
def validation (alg : Algorithm) (issuer : Text) : Validation :=
  { Validation.new alg with
    leeway := clockSkewLeewaySecs
    validateNbf := true
    aud := some [v.audience]
    iss := some [issuer]
    requiredSpecClaims := ["exp", "aud", "iss", "sub"] }

/-- `verify`, with the key that was found. -/
def closed (o : Opened) (issuer : Text) (key : SigningKey κ) (claimedAgent : Option Text) (now : ℕ) :
    Except AuthError Identity :=
  match key.alg with
  | some declared =>
    if declared ≠ o.alg then
      .error (.invalid ("token algorithm ".toList ++ o.alg.debug ++ " does not match the ".toList ++ declared.debug ++
        " declared by signing key".toList))
    else finish issuer
  | none => finish issuer
where
  /-- `decode`, and the identity. -/
  finish (issuer : Text) : Except AuthError Identity :=
    match jwt.decode o.token key.key (v.validation o.alg issuer) now with
    | .error e => .error (.invalid e)
    | .ok sub =>
      let subject := trim (sub.getD [])
      if subject = [] then
        .error (.invalid "token 'sub' is empty, so the caller has no identity to attribute".toList)
      else .ok (verifiedIdentity subject issuer claimedAgent)

/-! ### One verification -/

variable {v jwt}

/-- A token that is opened has one of the algorithms, a key id, and one issuer, which is one of the verifier's. -/
theorem opened_ok {raw : Text} {o : Opened} (h : v.opened jwt raw = .ok o) :
    o.token = trim raw ∧ jwt.decodeHeader o.token = .ok ⟨o.alg, some o.kid⟩ ∧ o.alg ∈ allowedAlgs ∧
      ∃ iss uri c, v.issuers[o.issuer]? = some (iss, uri) ∧ jwt.payload o.token c ∧ c.iss = .parsed (.one iss) := by
  unfold opened at h
  dsimp only at h
  split_ifs at h
  split at h
  · cases h
  · rename_i header hheader
    split_ifs at h with halg
    split at h
    · cases h
    · rename_i kid hkid
      split at h
      · cases h
      · rename_i claimed hclaimed
        split at h
        · cases h
        · rename_i issuer hissuer
          cases h
          obtain ⟨alg, hk⟩ := header
          cases hkid
          refine ⟨rfl, hheader, halg, ?_⟩
          obtain ⟨hlt, hfound, -⟩ := List.findIdx?_eq_some_iff_getElem.1 hissuer
          refine ⟨claimed, v.issuers[issuer].2, ?_⟩
          have hname : v.issuers[issuer].1 = claimed := of_decide_eq_true hfound
          unfold unverifiedIssuer at hclaimed
          split at hclaimed
          · rename_i header' payload signature hsplit
            split at hclaimed
            · cases hclaimed
            · rename_i bytes hbytes
              split at hclaimed
              · cases hclaimed
              · rename_i c hc
                split at hclaimed
                · rename_i iss hiss
                  cases hclaimed
                  refine ⟨c, ?_, ⟨header', payload, signature, bytes, hsplit, hbytes, hc⟩, hiss⟩
                  rw [List.getElem?_eq_getElem hlt, ← hname]
                · cases hclaimed
                · cases hclaimed
          · cases hclaimed

/-- An identity is of claims that `decode` has passed, under a key that does not declare another algorithm. -/
theorem closed_ok {o : Opened} {issuer : Text} {key : SigningKey κ} {claimedAgent : Option Text} {now : ℕ} {id : Identity}
    (h : v.closed jwt o issuer key claimedAgent now = .ok id) :
    (∀ a, key.alg = some a → a = o.alg) ∧ ∃ sub, jwt.decode o.token key.key (v.validation o.alg issuer) now = .ok sub ∧
      trim (sub.getD []) ≠ [] ∧ id = verifiedIdentity (trim (sub.getD [])) issuer claimedAgent := by
  have hfinish : closed.finish v jwt o key claimedAgent now issuer = .ok id →
      ∃ sub, jwt.decode o.token key.key (v.validation o.alg issuer) now = .ok sub ∧
        trim (sub.getD []) ≠ [] ∧ id = verifiedIdentity (trim (sub.getD [])) issuer claimedAgent := by
    intro h
    unfold closed.finish at h
    split at h
    · cases h
    · rename_i sub hsub
      dsimp only at h
      split_ifs at h with hempty
      exact ⟨sub, hsub, hempty, (Except.ok.inj h).symm⟩
  unfold closed at h
  split at h
  · rename_i declared hdecl
    split_ifs at h with hne
    · refine ⟨fun a ha => ?_, hfinish h⟩
      rw [hdecl] at ha
      cases ha
      exact not_not.1 hne
  · rename_i hdecl
    refine ⟨fun a ha => ?_, hfinish h⟩
    rw [hdecl] at ha
    cases ha

end Verifier

/-! ### Any number of verifications -/

/-- A verification, with its token and the leaf that is claimed. -/
inductive Verification (μ : Type) where
  | refused (raw : Text) (error : AuthError)
  /-- Its call of `key_for` is this one of the cache of its issuer. -/
  | looking (raw : Text) (claimedAgent : Option Text) (o : Opened) (call : ℕ)
  /-- Over, with the document that was fetched last for its issuer when the key was looked up. -/
  | over (raw : Text) (o : Opened) (latest : Option (List (Jwk μ))) (now : ℕ) (result : Except AuthError Identity)

/-- The caches of the issuers, in their order, and the verifications. -/
structure Service (μ κ : Type) where
  caches : List (Cache μ κ)
  verifications : List (Verification μ)

/-- What can happen. -/
inductive ServiceAct (μ : Type) where
  | verify (raw : Text) (claimedAgent : Option Text)
  /-- A step of the cache of an issuer. -/
  | cache (issuer : ℕ) (act : JwksAct μ)
  /-- A verification goes on with the answer of `key_for`. -/
  | goOn (n : ℕ) (now : ℕ)

namespace Service

variable {μ κ : Type} (v : Verifier) (jwt : Jwt κ) (p : JwksPolicy) (fromJwk : Jwk μ → Option κ)

/-- A new verifier. -/
def start : Service μ κ := ⟨v.issuers.map fun _ => JwksPolicy.start, []⟩

/-- One step of the verifications. -/
def step (s : Service μ κ) : ServiceAct μ → Option (Service μ κ)
  | .verify raw claimedAgent =>
    match v.opened jwt raw with
    | .error e => some { s with verifications := s.verifications ++ [.refused raw e] }
    | .ok o => do
      let cache ← s.caches[o.issuer]?
      let cache' ← p.step fromJwk cache (.call o.kid)
      some ⟨s.caches.set o.issuer cache', s.verifications ++ [.looking raw claimedAgent o cache.calls.length]⟩
  | .cache issuer act => do
    let cache ← s.caches[issuer]?
    let cache' ← p.step fromJwk cache act
    some { s with caches := s.caches.set issuer cache' }
  | .goOn n now => do
    let .looking raw claimedAgent o call ← s.verifications[n]? | none
    let cache ← s.caches[o.issuer]?
    let .answered _ answer latest ← cache.calls[call]? | none
    let (issuer, _) ← v.issuers[o.issuer]?
    let result := match answer with
      | .error e => .error e
      | .ok key => v.closed jwt o issuer key claimedAgent now
    some { s with verifications := s.verifications.set n (.over raw o latest now result) }

/-- **A genuine identity**: the signature of the token verifies, with the algorithm of its header, under a key that the document
fetched last for its issuer lists under its key id and that may be used for it; its claims pass; and the identity is of its
issuer and its subject. -/
structure Genuine (Signed : Text → κ → Algorithm → Prop) (o : Opened) (latest : Option (List (Jwk μ))) (now : ℕ)
    (id : Identity) : Prop where
  header : jwt.decodeHeader o.token = .ok ⟨o.alg, some o.kid⟩
  allowed : o.alg ∈ allowedAlgs
  key : ∃ doc, latest = some doc ∧ ∃ jwk ∈ doc, ∃ key : SigningKey κ, jwk.Usable fromJwk o.kid key ∧
    Signed o.token key.key o.alg ∧ ∀ a, jwk.keyAlgorithm = some a → asSigningAlg a = some o.alg
  claims : ∃ c iss uri aud exp sub, jwt.payload o.token c ∧ v.issuers[o.issuer]? = some (iss, uri) ∧
    c.iss = .parsed (.one iss) ∧ c.aud = .parsed aud ∧ v.audience ∈ aud.values ∧
    c.exp = .parsed exp ∧ now ≤ exp + clockSkewLeewaySecs ∧
    (∀ n, c.nbf = .parsed n → n ≤ now + clockSkewLeewaySecs) ∧
    c.sub = .parsed sub ∧ trim sub ≠ [] ∧ id.subject = trim sub ∧ id.issuer = iss ∧ id.verified = true

/-- Every identity that was returned is genuine. -/
def Sound (Signed : Text → κ → Algorithm → Prop) (s : Service μ κ) : Prop :=
  ∀ raw o latest now id, Verification.over raw o latest now (.ok id) ∈ s.verifications →
    o.token = trim raw ∧ Genuine v jwt fromJwk Signed o latest now id

/-! ### Soundness -/

variable {v jwt p fromJwk} {Signed : Text → κ → Algorithm → Prop}

/-- A token has one payload. -/
theorem payload_unique {token : Text} {c c' : Payload} (h : jwt.payload token c) (h' : jwt.payload token c') : c = c' := by
  obtain ⟨a, b, d, bytes, hsplit, hbytes, hc⟩ := h
  obtain ⟨a', b', d', bytes', hsplit', hbytes', hc'⟩ := h'
  rw [hsplit] at hsplit'
  cases hsplit'
  rw [hbytes] at hbytes'
  cases hbytes'
  rw [hc] at hc'
  exact Except.ok.inj hc'

theorem parsed_of_isParsed {α : Type} {t : TryParse α} (h : t.isParsed = true) : ∃ a, t = .parsed a := by
  cases t with
  | parsed a => exact ⟨a, rfl⟩
  | failedToParse => cases h
  | notPresent => cases h

/-- **One verification**: with a key that its issuer listed, an identity is genuine. -/
theorem genuine_of_closed (hjwt : jwt.Checks Signed) {raw : Text} {o : Opened} (hopen : v.opened jwt raw = .ok o)
    {doc : List (Jwk μ)} {key : SigningKey κ} (hkey : (importKeys fromJwk doc).lookup o.kid = some key) {iss uri : Text}
    (hiss : v.issuers[o.issuer]? = some (iss, uri)) {claimedAgent : Option Text} {now : ℕ} {id : Identity}
    (h : v.closed jwt o iss key claimedAgent now = .ok id) : Genuine v jwt fromJwk Signed o (some doc) now id := by
  obtain ⟨-, hheader, hallowed, iss', uri', c, hiss', hc, hciss⟩ := Verifier.opened_ok hopen
  rw [hiss] at hiss'
  cases hiss'
  obtain ⟨hdecl, sub, hdecode, hne, rfl⟩ := Verifier.closed_ok h
  obtain ⟨jwk, hjwk, husable⟩ := lookup_importKeys fromJwk hkey
  obtain ⟨c', hc', hpass, hsub⟩ := hjwt.passes _ _ _ _ _ hdecode
  obtain rfl := payload_unique hc hc'
  obtain ⟨aud, haud⟩ := parsed_of_isParsed (hpass.required "aud" (by simp [Verifier.validation]))
  obtain ⟨exp, hexp⟩ := parsed_of_isParsed (hpass.required "exp" (by simp [Verifier.validation]))
  obtain ⟨allowed, hset, x, hx, hxa⟩ := hpass.aud rfl aud haud
  obtain ⟨s, rfl⟩ : ∃ s, sub = some s := by
    cases sub with
    | none => exact absurd rfl hne
    | some s => exact ⟨s, rfl⟩
  refine ⟨hheader, hallowed, ⟨doc, rfl, jwk, hjwk, key, husable, hjwt.signed _ _ _ _ _ hdecode, fun a ha => ?_⟩,
    c, iss, uri, aud, exp, s, hc, hiss, hciss, haud, ?_, hexp, hpass.exp rfl exp hexp, fun n hn => hpass.nbf rfl n hn,
    hsub s rfl, hne, trim_trim s, v.trimmed _ (List.mem_of_getElem? hiss), rfl⟩
  · obtain ⟨alg, halg⟩ := husable.signing a ha
    have hkalg : key.alg = some alg := by
      rw [husable.declared, ha]
      exact halg
    rw [halg, hdecl alg hkalg]
  · cases hset
    rwa [List.mem_singleton.1 hxa] at hx

/-- The call of a verification is in the cache of its issuer, with its key id. -/
def Called (caches : List (Cache μ κ)) (o : Opened) (call : ℕ) : Prop :=
  ∃ cache st, caches[o.issuer]? = some cache ∧ cache.calls[call]? = some st ∧ ∀ kid, st.kid = some kid → kid = o.kid

theorem Called.step {caches : List (Cache μ κ)} {o : Opened} {call : ℕ} (h : Called caches o call) {issuer : ℕ}
    {cache cache' : Cache μ κ} {act : JwksAct μ} (hcache : caches[issuer]? = some cache)
    (hstep : p.step fromJwk cache act = some cache') : Called (caches.set issuer cache') o call := by
  obtain ⟨own, st, hown, hst, hkid⟩ := h
  by_cases hi : issuer = o.issuer
  · subst hi
    rw [hcache] at hown
    cases hown
    obtain ⟨st', hst', hsame⟩ := JwksPolicy.step_kid hstep hst
    exact ⟨cache', st', List.getElem?_set_self (List.getElem?_eq_some_iff.1 hcache).1, hst',
      fun kid hk => hkid kid (hsame kid hk)⟩
  · exact ⟨own, st, by rw [List.getElem?_set_ne hi, hown], hst, hkid⟩

/-- What holds in every run. -/
structure Inv (v : Verifier) (jwt : Jwt κ) (p : JwksPolicy) (fromJwk : Jwk μ → Option κ)
    (Signed : Text → κ → Algorithm → Prop) (s : Service μ κ) : Prop where
  caches : ∀ cache ∈ s.caches, p.Inv fromJwk cache
  looking : ∀ raw agent o call, Verification.looking raw agent o call ∈ s.verifications →
    v.opened jwt raw = .ok o ∧ Called s.caches o call
  sound : s.Sound v jwt fromJwk Signed

theorem Inv.start : Inv v jwt p fromJwk Signed (Service.start v : Service μ κ) where
  caches cache hc := by
    obtain ⟨i, -, rfl⟩ := List.mem_map.1 hc
    exact JwksPolicy.Inv.start
  looking _ _ _ _ h := nomatch h
  sound _ _ _ _ _ h := nomatch h

/-- A cache that takes a step. -/
theorem Inv.cache {s : Service μ κ} (h : s.Inv v jwt p fromJwk Signed) {issuer : ℕ} {cache cache' : Cache μ κ}
    {act : JwksAct μ} (hcache : s.caches[issuer]? = some cache) (hstep : p.step fromJwk cache act = some cache') :
    ({ s with caches := s.caches.set issuer cache' } : Service μ κ).Inv v jwt p fromJwk Signed where
  caches k hk := by
    rcases List.mem_or_eq_of_mem_set hk with hk | rfl
    · exact h.caches k hk
    · exact (h.caches cache (List.mem_of_getElem? hcache)).step hstep
  looking raw agent o call hl := ⟨(h.looking raw agent o call hl).1, (h.looking raw agent o call hl).2.step hcache hstep⟩
  sound := h.sound

theorem Inv.step (hjwt : jwt.Checks Signed) {s s' : Service μ κ} (h : s.Inv v jwt p fromJwk Signed) {a : ServiceAct μ}
    (hstep : s.step v jwt p fromJwk a = some s') : s'.Inv v jwt p fromJwk Signed := by
  cases a with
  | cache issuer act =>
    obtain ⟨cache, hcache, hstep⟩ := Option.bind_eq_some_iff.1 hstep
    obtain ⟨cache', hcache', hstep⟩ := Option.bind_eq_some_iff.1 hstep
    cases hstep
    exact h.cache hcache hcache'
  | verify raw claimedAgent =>
    simp only [Service.step] at hstep
    split at hstep
    · cases hstep
      refine ⟨h.caches, fun raw' agent o call hl => ?_, fun raw' o latest now id hm => ?_⟩
      · rcases List.mem_append.1 hl with hl | hl
        · exact h.looking raw' agent o call hl
        · cases List.mem_singleton.1 hl
      · rcases List.mem_append.1 hm with hm | hm
        · exact h.sound raw' o latest now id hm
        · cases List.mem_singleton.1 hm
    · rename_i o hopen
      obtain ⟨cache, hcache, hstep⟩ := Option.bind_eq_some_iff.1 hstep
      obtain ⟨cache', hcall, hstep⟩ := Option.bind_eq_some_iff.1 hstep
      cases hstep
      have hc := h.cache hcache hcall
      refine ⟨hc.caches, fun raw' agent o' call hl => ?_, fun raw' o' latest now id hm => ?_⟩
      · rcases List.mem_append.1 hl with hl | hl
        · exact hc.looking raw' agent o' call hl
        · cases List.mem_singleton.1 hl
          cases hcall
          refine ⟨hopen, _, .entering o.kid, List.getElem?_set_self (List.getElem?_eq_some_iff.1 hcache).1, ?_, ?_⟩
          · exact List.getElem?_concat_length
          · intro kid hkid
            exact (Option.some.inj hkid).symm
      · rcases List.mem_append.1 hm with hm | hm
        · exact h.sound raw' o' latest now id hm
        · cases List.mem_singleton.1 hm
  | goOn n now =>
    obtain ⟨x, hx, hstep⟩ := Option.bind_eq_some_iff.1 hstep
    split at hstep
    · rename_i raw claimedAgent o call
      obtain ⟨cache, hcache, hstep⟩ := Option.bind_eq_some_iff.1 hstep
      obtain ⟨st, hst, hstep⟩ := Option.bind_eq_some_iff.1 hstep
      split at hstep
      · rename_i kid answer latest
        obtain ⟨⟨iss, uri⟩, hiss, hstep⟩ := Option.bind_eq_some_iff.1 hstep
        cases hstep
        obtain ⟨hopen, own, st, hown, hst', hkid⟩ := h.looking _ _ _ _ (List.mem_of_getElem? hx)
        rw [hcache] at hown
        cases hown
        rw [hst] at hst'
        cases hst'
        obtain rfl : kid = o.kid := hkid kid rfl
        refine ⟨h.caches, fun raw' agent o' call' hl => ?_, fun raw' o' latest' now' id hm => ?_⟩
        · rcases List.mem_or_eq_of_mem_set hl with hl | hl
          · exact h.looking raw' agent o' call' hl
          · cases hl
        · rcases List.mem_or_eq_of_mem_set hm with hm | hm
          · exact h.sound raw' o' latest' now' id hm
          · have hstage := (h.caches cache (List.mem_of_getElem? hcache)).stages call _ hst
            cases answer with
            | error e => cases hm
            | ok key =>
              obtain ⟨rfl, rfl, rfl, rfl, hid⟩ := Verification.over.inj hm
              obtain ⟨doc, rfl, hkey⟩ := hstage
              exact ⟨(Verifier.opened_ok hopen).1, genuine_of_closed hjwt hopen hkey hiss hid.symm⟩
      · cases hstep
    · cases hstep

/-- **Verification is sound**: in every state of every run, for all issuers and tokens, and whatever the fetches of their keys
come to, each identity that is returned is genuine. -/
theorem verify_sound (hjwt : jwt.Checks Signed) (acts : List (ServiceAct μ)) :
    Runs.Always (Service.step v jwt p fromJwk) (Sound v jwt fromJwk Signed) (Service.start v : Service μ κ) acts :=
  Runs.always_of_careful (fun _ _ _ hinv _ hstep => Inv.step hjwt hinv hstep) (fun _ hinv => hinv.sound) Inv.start
    (show Runs.Careful _ (fun _ _ => True) _ acts from Runs.careful_of_forall fun _ _ _ => trivial)

end Service

/-! ### A token -/

/-- A deployment with one issuer. -/
def oneIssuer : Verifier where
  audience := "latiq".toList
  issuers := [("https://idp".toList, discoverUri "https://idp".toList)]
  trimmed := by decide
  distinct := by decide
  audience_ne := by decide

/-- The claims of a token for Alice. -/
def aliceClaims : Payload :=
  ⟨.parsed (.one "https://idp".toList), .parsed (.one "latiq".toList), .parsed 1000, .notPresent, .parsed "alice".toList⟩

/-- A library that knows one token, of three segments, signed with RS256 and valid up to the thousandth second. -/
def knowsAlice : Jwt Unit where
  decodeHeader token := if token = "h.p.s".toList then .ok ⟨.rs256, some "k1".toList⟩ else .error "InvalidToken".toList
  base64 _ := .ok []
  fromSlice _ := .ok aliceClaims
  decode token _ v now :=
    if token = "h.p.s".toList ∧ v = oneIssuer.validation .rs256 "https://idp".toList ∧ now ≤ 1030 then
      .ok (some "alice".toList)
    else .error "InvalidToken".toList

/-- The signature of the token. -/
def AliceSigned (token : Text) (_ : Unit) (alg : Algorithm) : Prop := token = "h.p.s".toList ∧ alg = .rs256

theorem knowsAlice_checks : knowsAlice.Checks AliceSigned where
  signed token key v now sub h := by
    simp only [knowsAlice] at h
    split_ifs at h with hknown
    obtain ⟨rfl, rfl, -⟩ := hknown
    exact ⟨rfl, rfl⟩
  passes token key v now sub h := by
    simp only [knowsAlice] at h
    split_ifs at h with hknown
    obtain ⟨rfl, rfl, hnow⟩ := hknown
    cases h
    refine ⟨aliceClaims, ⟨"h".toList, "p".toList, "s".toList, [], by decide, rfl, rfl⟩, ⟨by decide, ?_, ?_, ?_, ?_⟩, ?_⟩
    · intro _ e he
      cases he
      exact hnow
    · intro _ n hn
      cases hn
    · intro allowed hallowed i hi
      cases hallowed
      cases hi
      exact ⟨"https://idp".toList, List.mem_cons_self, List.mem_cons_self⟩
    · intro _ a ha
      cases ha
      exact ⟨_, rfl, "latiq".toList, List.mem_cons_self, List.mem_cons_self⟩
    · intro s hs
      cases hs
      rfl

/-- A verification whose key is fetched. -/
def aliceRun : List (ServiceAct Unit) :=
  .verify " h.p.s".toList none :: List.replicate 5 (.cache 0 (.go 0)) ++
    .cache 0 (.fetch 0 (.ok [⟨some "k1".toList, some .signature, some (.signing .rs256), ()⟩])) ::
    List.replicate 4 (.cache 0 (.go 0)) ++ [.goOn 0 500]

theorem alice_verified :
    ((Runs.run (Service.step oneIssuer knowsAlice JwksPolicy.usual fun _ : Jwk Unit => some ()) (Service.start oneIssuer)
        aliceRun).map fun s => s.verifications.map fun x =>
      match x with
      | .over _ _ _ _ (.ok id) => some (id.subject, id.issuer)
      | _ => none) = some [some ("alice".toList, "https://idp".toList)] ∧
    Runs.Always (Service.step oneIssuer knowsAlice JwksPolicy.usual fun _ : Jwk Unit => some ())
      (Service.Sound oneIssuer knowsAlice (fun _ => some ()) AliceSigned) (Service.start oneIssuer) aliceRun :=
  ⟨by decide +kernel, Service.verify_sound knowsAlice_checks aliceRun⟩

end Latiq.Auth
