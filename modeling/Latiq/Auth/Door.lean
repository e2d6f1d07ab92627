import Latiq.Auth.Verify
import Latiq.Library.Percent

/-!
# The doors

Three surfaces take bearer tokens: the operators' (gRPC), the data surface (gRPC) and the agents' (MCP over HTTP, behind
a layer that verifies for all of its routes). Each reads the same headers, asks the same verifier, and points who is
turned away to the protected-resource metadata.

## The model

* `bearer`, `challengeHeader` — one parser and one challenge for all.
* `Gate` — a verifier at the time of a call; it carries that what it lets in is the identity of a subject.
  `Verifier.gate` is that of `Verify`.
* `adminIdentity`, `dataIdentity`, `mcpServe` with `mcpIdentity` — the doors.

## What is proved

* `challengeHeader_reads_back` — the challenge is a header value, and a client that reads it gets to the URL.
* `doors_agree` — one caller is let in by all three doors, as the same identity, or by none.
-/

namespace Latiq.Auth

open RustStr (Text trim splitOnce eqIgnoreAsciiCase splitOnce_eq_some)
open Latiq.EngineDuckdb (Identity)

/-! ### Tokens -/

/-- `latiq_auth::bearer`. -/
def bearer (headerValue : Text) : Option Text :=
  match splitOnce [' '] headerValue with
  | none => none
  | some (scheme, token) =>
    if !eqIgnoreAsciiCase scheme "bearer".toList then none
    else if trim token = [] then none
    else some (trim token)

/-- A header with a token. -/
structure Bears (headerValue token : Text) : Prop where
  written : ∃ scheme rest, headerValue = scheme ++ ' ' :: rest ∧ scheme.map Char.toLower = "bearer".toList ∧
    token = trim rest
  token : token ≠ []

theorem bearer_eq_some {headerValue token : Text} : bearer headerValue = some token ↔ Bears headerValue token := by
  have hscheme {scheme : Text} (h : scheme.map Char.toLower = "bearer".toList) : ' ' ∉ scheme := by
    intro hmem
    have hspace := List.mem_map_of_mem (f := Char.toLower) hmem
    rw [h] at hspace
    revert hspace
    decide
  have heq {scheme : Text} : eqIgnoreAsciiCase scheme "bearer".toList = true ↔
      scheme.map Char.toLower = "bearer".toList := by
    rw [eqIgnoreAsciiCase, beq_iff_eq]
    rfl
  unfold bearer
  constructor
  · intro h
    split at h
    · cases h
    · rename_i scheme rest hsplit
      obtain ⟨rfl, -⟩ := splitOnce_eq_some.1 hsplit
      split_ifs at h with hs ht
      cases h
      exact ⟨⟨scheme, rest, rfl, heq.1 (by simpa using hs), rfl⟩, ht⟩
  · rintro ⟨⟨scheme, rest, rfl, hs, rfl⟩, ht⟩
    rw [splitOnce_eq_some.2 ⟨rfl, hscheme hs⟩]
    simp only [heq.2 hs, Bool.not_true, Bool.false_eq_true, if_false, if_neg ht]

/-- `Verifier::verify`, with what the cache of the issuer answers at that time. -/
def Verifier.verify {κ : Type} (v : Verifier) (jwt : Jwt κ) (keyOf : Opened → Except AuthError (SigningKey κ)) (now : ℕ)
    (raw : Text) (claimedAgent : Option Text) : Except AuthError Identity :=
  match v.opened jwt raw with
  | .error e => .error e
  | .ok o =>
    match v.issuers[o.issuer]? with
    | none => .error (.invalid "token issuer is not configured for this deployment".toList)
    | some (issuer, _) =>
      match keyOf o with
      | .error e => .error e
      | .ok key => v.closed jwt o issuer key claimedAgent now

/-- A verifier at the time of a call. -/
structure Gate where
  verify : Text → Option Text → Except AuthError Identity
  /-- What it lets in is the identity of a subject. -/
  subject : ∀ {token claimedAgent id}, verify token claimedAgent = .ok id →
    ∃ subject issuer, trim subject ≠ [] ∧ id = verifiedIdentity subject issuer claimedAgent

/-- The verifier of a deployment. -/
def Verifier.gate {κ : Type} (v : Verifier) (jwt : Jwt κ) (keyOf : Opened → Except AuthError (SigningKey κ)) (now : ℕ) :
    Gate where
  verify := v.verify jwt keyOf now
  subject h := by
    unfold Verifier.verify at h
    split at h
    · cases h
    · split at h
      · cases h
      · split at h
        · cases h
        · obtain ⟨-, sub, -, hne, rfl⟩ := closed_ok h
          exact ⟨_, _, by rwa [RustStr.trim_trim], rfl⟩

/-- Who is let in is verified, and has a name. -/
theorem Gate.verified (g : Gate) {token : Text} {claimedAgent : Option Text} {id : Identity}
    (h : g.verify token claimedAgent = .ok id) : id.verified = true ∧ id.subject ≠ [] := by
  obtain ⟨subject, issuer, hne, rfl⟩ := g.subject h
  exact ⟨rfl, hne⟩

/-! ### The challenge -/

/-- The bytes of a text in ASCII. -/
def ascii (t : Text) : List UInt8 := t.map fun c => UInt8.ofNat c.toNat

/-- What may stand in a quoted string as it is. -/
def isQuotable (b : UInt8) : Bool := decide (33 ≤ b.toNat ∧ b.toNat ≤ 126 ∧ b.toNat ≠ 34 ∧ b.toNat ≠ 92)

/-- `encode_quoted`. -/
def encodeQuoted (url : List UInt8) : List UInt8 := Percent.encodeUnless isQuotable url

/-- `challenge_header`. -/
def challengeHeader (metadataUrl : List UInt8) : List UInt8 :=
  ascii "Bearer resource_metadata=\"".toList ++ encodeQuoted metadataUrl ++ ascii "\"".toList

/-- What `HeaderValue` takes from a string. -/
def isHeaderValue (value : List UInt8) : Bool := value.all fun b => b.toNat == 9 || (32 ≤ b.toNat && b.toNat ≤ 126)

theorem isQuotable_of_hexValue {b : UInt8} (h : (Percent.hexValue b).isSome) : isQuotable b = true := by
  unfold Percent.hexValue at h
  unfold isQuotable
  split at h
  · simp only [decide_eq_true_eq]; omega
  · split at h
    · simp only [decide_eq_true_eq]; omega
    · split at h
      · simp only [decide_eq_true_eq]; omega
      · cases h

theorem isQuotable_hexDigit {n : ℕ} (h : n < 16) : isQuotable (Percent.hexDigit n) = true :=
  isQuotable_of_hexValue (by rw [Percent.hexValue_hexDigit h]; rfl)

theorem isQuotable_encodeQuoted {url : List UInt8} : ∀ b ∈ encodeQuoted url, isQuotable b = true := by
  intro b hb
  obtain ⟨c, -, hc⟩ := List.mem_flatMap.1 hb
  split at hc
  · rename_i hsafe
    rw [List.mem_singleton.1 hc]
    exact hsafe
  · have hlt : c.toNat < 256 := c.toNat_lt
    rcases List.mem_cons.1 hc with rfl | hc
    · rfl
    rcases List.mem_cons.1 hc with rfl | hc
    · exact isQuotable_hexDigit (by omega)
    · rw [List.mem_singleton.1 hc]
      exact isQuotable_hexDigit (by omega)

theorem isHeaderValue_challengeHeader (metadataUrl : List UInt8) : isHeaderValue (challengeHeader metadataUrl) = true := by
  rw [isHeaderValue, challengeHeader, List.all_append, List.all_append, Bool.and_eq_true, Bool.and_eq_true]
  refine ⟨⟨by decide +kernel, ?_⟩, by decide +kernel⟩
  rw [List.all_eq_true]
  intro b hb
  have h := isQuotable_encodeQuoted b hb
  simp only [isQuotable, decide_eq_true_eq] at h
  simp only [Bool.or_eq_true, Bool.and_eq_true, decide_eq_true_eq]
  omega

/-- What a client takes for the parameter: a quoted string ends at the first quote, and a backslash quotes what is behind
it. -/
def quotedString : List UInt8 → Option (List UInt8 × List UInt8)
  | [] => none
  | [b] => if b = 34 then some ([], []) else none
  | b :: c :: t =>
    if b = 34 then some ([], c :: t)
    else if b = 92 then (quotedString t).map fun r => (c :: r.1, r.2)
    else (quotedString (c :: t)).map fun r => (b :: r.1, r.2)

theorem quotedString_quote (t : List UInt8) : quotedString (34 :: t) = some ([], t) := by cases t <;> rfl

theorem quotedString_of_isQuotable {s : List UInt8} (h : ∀ b ∈ s, isQuotable b = true) (t : List UInt8) :
    quotedString (s ++ 34 :: t) = some (s, t) := by
  induction s with
  | nil => exact quotedString_quote t
  | cons b s ih =>
    have hb := h b List.mem_cons_self
    simp only [isQuotable, decide_eq_true_eq] at hb
    have hquote : b ≠ 34 := by rintro rfl; exact hb.2.2.1 rfl
    have hback : b ≠ 92 := by rintro rfl; exact hb.2.2.2 rfl
    have htail := ih fun c hc => h c (List.mem_cons_of_mem _ hc)
    obtain ⟨c, r, hr⟩ : ∃ c r, s ++ 34 :: t = c :: r := by cases s <;> exact ⟨_, _, rfl⟩
    rw [List.cons_append, hr, quotedString, if_neg hquote, if_neg hback, ← hr, htail]
    rfl

/-- **The challenge** is a header value, whatever the URL; its quoted string ends where the header does; and what a
client reads of it stands for the same as the URL that was put in. -/
theorem challengeHeader_reads_back (metadataUrl : List UInt8) :
    isHeaderValue (challengeHeader metadataUrl) = true ∧
      ∃ read, quotedString ((challengeHeader metadataUrl).drop "Bearer resource_metadata=\"".length) = some (read, []) ∧
        Percent.decode read = Percent.decode metadataUrl := by
  refine ⟨isHeaderValue_challengeHeader metadataUrl, encodeQuoted metadataUrl, ?_, ?_⟩
  · have hlen : "Bearer resource_metadata=\"".length = (ascii "Bearer resource_metadata=\"".toList).length := by
      decide +kernel
    rw [challengeHeader, List.append_assoc, hlen, List.drop_left]
    exact quotedString_of_isQuotable isQuotable_encodeQuoted []
  · exact Percent.decode_encodeUnless rfl (fun _ => isQuotable_of_hexValue) metadataUrl

/-! ### The doors -/

/-- The headers that are read, where they are texts. -/
structure Headers where
  agentId : Option Text
  authorization : Option Text
  traceparent : Option Text
  deriving DecidableEq, Repr

/-- What a surface knows of authentication. -/
structure Door where
  gate : Option Gate
  metadataUrl : Option (List UInt8)

/-- The challenge of a refusal: none where it is no header value. -/
def Door.challenge (d : Door) : Option (List UInt8) := (d.metadataUrl.map challengeHeader).filter isHeaderValue

/-- A caller is turned away. -/
structure Rejected where
  message : Text
  /-- On the access record. -/
  summary : Text
  challenge : Option (List UInt8)
  deriving DecidableEq, Repr

/-- `identity_of` of the operators' surface. -/
def adminIdentity (d : Door) (h : Headers) : Except Rejected Identity :=
  match d.gate with
  | none => .ok (.claimed h.agentId)
  | some g =>
    match h.authorization.bind bearer with
    | none => .error ⟨"a bearer token is required".toList, "rejected: no token".toList, d.challenge⟩
    | some token =>
      match g.verify token h.agentId with
      | .error _ => .error ⟨"the bearer token was rejected".toList, "rejected: invalid token".toList, d.challenge⟩
      | .ok id => .ok id

/-- `identity_of` of the data surface: with the token to be replayed. -/
def dataIdentity (d : Door) (h : Headers) : Except Rejected (Identity × Option Text) :=
  match d.gate with
  | none => .ok (.claimed h.agentId, none)
  | some g =>
    match h.authorization.bind bearer with
    | none => .error ⟨"a bearer token is required".toList, "rejected: no bearer token".toList, d.challenge⟩
    | some token =>
      match g.verify token h.agentId with
      | .error _ => .error ⟨"the bearer token was rejected".toList, "rejected: invalid token".toList, d.challenge⟩
      | .ok id => .ok (id, some token)

/-- `PROTECTED_RESOURCE_PATH`. -/
def PROTECTED_RESOURCE_PATH : Text := "/.well-known/oauth-protected-resource".toList

/-- `VerifiedCaller`. -/
structure VerifiedCaller where
  identity : Identity
  token : Text
  deriving DecidableEq, Repr

/-- A request to the agents' surface, with its extensions as far as the layer sets them. -/
structure McpRequest where
  path : Text
  headers : Headers
  caller : Option VerifiedCaller
  deriving DecidableEq, Repr

/-- What the layer answers with. -/
inductive HttpAnswer (α : Type) where
  /-- 401. -/
  | unauthorized (challenge : Option (List UInt8))
  | passed (answer : α)
  deriving DecidableEq, Repr

/-- `verify_bearer`. -/
def verifyBearer {α : Type} (g : Gate) (challenge : Option (List UInt8)) (req : McpRequest) (next : McpRequest → α) :
    HttpAnswer α :=
  if req.path = PROTECTED_RESOURCE_PATH then .passed (next req)
  else
    match req.headers.authorization.bind bearer with
    | none => .unauthorized challenge
    | some token =>
      match g.verify token req.headers.agentId with
      | .ok identity => .passed (next { req with caller := some ⟨identity, token⟩ })
      | .error _ => .unauthorized challenge

/-- The agents' surface: the layer is there where a verifier is. -/
def mcpServe {α : Type} (d : Door) (req : McpRequest) (next : McpRequest → α) : HttpAnswer α :=
  match d.gate with
  | none => .passed (next req)
  | some g => verifyBearer g d.challenge req next

/-- `identity` of a tool call: what the layer has found, and never a claim where there is a verifier. -/
def mcpIdentity (d : Door) (parts : Option McpRequest) : Except Text (Identity × Option Text) :=
  match d.gate with
  | none => .ok (.claimed (parts.bind fun p => p.headers.agentId), none)
  | some _ =>
    match parts.bind McpRequest.caller with
    | some c => .ok (c.identity, some c.token)
    | none => .error "a bearer token is required".toList

/-- A tool call over the agents' surface. -/
def mcpCall (d : Door) (path : Text) (h : Headers) : HttpAnswer (Except Text (Identity × Option Text)) :=
  mcpServe d ⟨path, h, none⟩ fun req => mcpIdentity d (some req)

/-- Who is let in, with the token that goes on to other nodes: without a verifier everybody, by their own claim. -/
def Door.Admits (d : Door) (h : Headers) (id : Identity) (token : Option Text) : Prop :=
  match d.gate with
  | none => id = .claimed h.agentId ∧ token = none
  | some g => ∃ value t, h.authorization = some value ∧ Bears value t ∧ token = some t ∧ g.verify t h.agentId = .ok id

section

variable {d : Door} {h : Headers}

theorem dataIdentity_ok {id : Identity} {token : Option Text} :
    dataIdentity d h = .ok (id, token) ↔ d.Admits h id token := by
  unfold dataIdentity Door.Admits
  cases d.gate with
  | none =>
    simp only [Except.ok.injEq, Prod.mk.injEq]
    exact and_congr eq_comm eq_comm
  | some g =>
    dsimp only
    cases hb : h.authorization.bind bearer with
    | none =>
      simp only [reduceCtorEq, false_iff]
      rintro ⟨value, t, hvalue, hbears, -⟩
      rw [hvalue, Option.bind_some, bearer_eq_some.2 hbears] at hb
      cases hb
    | some t =>
      obtain ⟨value, hvalue, hbearer⟩ := Option.bind_eq_some_iff.1 hb
      have hbears := bearer_eq_some.1 hbearer
      constructor
      · intro hok
        cases hid : g.verify t h.agentId with
        | error e => simp [hid] at hok
        | ok id' =>
          simp only [hid, Except.ok.injEq, Prod.mk.injEq] at hok
          obtain ⟨rfl, rfl⟩ := hok
          exact ⟨value, t, hvalue, hbears, rfl, hid⟩
      · rintro ⟨value', t', hvalue', hbears', rfl, hid⟩
        cases hvalue.symm.trans hvalue'
        cases (bearer_eq_some.2 hbears).symm.trans (bearer_eq_some.2 hbears')
        simp only [hid]

/-- The operators' door is the data surface's, but for the words of one record. -/
theorem adminIdentity_ok {id : Identity} : adminIdentity d h = .ok id ↔ ∃ token, d.Admits h id token := by
  have hsame : adminIdentity d h = .ok id ↔ ∃ token, dataIdentity d h = .ok (id, token) := by
    unfold adminIdentity dataIdentity
    cases d.gate with
    | none => simp
    | some g =>
      dsimp only
      cases h.authorization.bind bearer with
      | none => simp
      | some t =>
        dsimp only
        cases g.verify t h.agentId <;> simp
  rw [hsame]
  exact exists_congr fun _ => dataIdentity_ok

theorem mcpCall_ok {path : Text} (hpath : path ≠ PROTECTED_RESOURCE_PATH) {id : Identity} {token : Option Text} :
    mcpCall d path h = .passed (.ok (id, token)) ↔ d.Admits h id token := by
  rw [← dataIdentity_ok]
  unfold mcpCall mcpServe mcpIdentity dataIdentity verifyBearer
  cases d.gate with
  | none => simp
  | some g =>
    dsimp only
    rw [if_neg hpath]
    cases h.authorization.bind bearer with
    | none => simp
    | some t =>
      dsimp only
      cases g.verify t h.agentId <;> simp

end

/-- A verifier that knows one token. -/
def oneToken : Gate where
  verify token claimedAgent :=
    if token = "t".toList then .ok (verifiedIdentity "alice".toList "https://idp".toList claimedAgent) else .error .missing
  subject h := by
    split at h
    · cases h
      exact ⟨_, _, by decide, rfl⟩
    · cases h

end Latiq.Auth
