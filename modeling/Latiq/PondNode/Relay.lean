import Latiq.Auth.Door
import Latiq.Common.Trace

/-!
# Who a call is from, all the way

A call that a node cannot serve goes on to the node that can, and a pond that is allocated is materialized on its owner,
which the control plane asks for it. What goes along is the leaf of the caller, the token as it was presented, and the
trace. Each node on the way verifies the token itself, with its own audience, its own issuers and keys, and by its own
clock; no header says that it was verified before.

## The model

* `Request` — headers, of the characters that a header may have.
* `Scope` — what a node knows of a call while it serves it.
* `enter`, `arrive` — a node takes a request; `Hop.send` — what it sends on, through `withIdentity`, or through
  `withCaller`, `callerAuth` and the client of the control plane.
* `walk` — a call on its way through any number of nodes.

## What is proved

* `verify_names` — what identity a token proves depends on the token alone.
* `enter_send` — what one hop does to an identity.
* **`identity_relayed`** — a node with a verifier that takes a call knows the caller as the first node did, by the token
  that the caller has presented; behind a node without one no node with a verifier takes it; and nothing but the
  verifiers on the way can stop it.
-/

namespace Latiq.PondNode.Relay

open RustStr (Text trim trim_trim)
open Latiq.Common Latiq.Auth
open Latiq.EngineDuckdb (Identity)

/-! ### Requests -/

/-- What a header may have in it: `to_str` and `MetadataValue::try_from` ask the same. -/
def isVisible (c : Char) : Bool := c == '\t' || (32 ≤ c.toNat && c.toNat < 127)

/-- `MetadataValue::try_from`, where it succeeds. -/
def metadataValue (t : Text) : Option Text := if t.all isVisible then some t else none

/-- A header, if it is there, is made of visible characters. -/
def Visible (header : Option Text) : Prop := ∀ t, header = some t → t.all isVisible = true

/-- The headers of a request. -/
structure Request where
  headers : Headers
  agentId : Visible headers.agentId
  authorization : Visible headers.authorization
  traceparent : Visible headers.traceparent

theorem visible_metadataValue (t : Text) : Visible (metadataValue t) := by
  intro u hu
  unfold metadataValue at hu
  split_ifs at hu with ht
  cases hu
  exact ht

theorem visible_bind (o : Option Text) : Visible (o.bind metadataValue) := by
  intro u hu
  obtain ⟨t, -, ht⟩ := Option.bind_eq_some_iff.1 hu
  exact visible_metadataValue t u ht

/-- A request with these headers, as far as they are values. -/
def Request.of (agentId authorization traceparent : Option Text) : Request where
  headers := ⟨agentId.bind metadataValue, authorization.bind metadataValue, traceparent.bind metadataValue⟩
  agentId := visible_bind agentId
  authorization := visible_bind authorization
  traceparent := visible_bind traceparent

/-! ### A node -/

/-- What a node knows of a call while it serves it. -/
structure Scope where
  id : Identity
  /-- The ambient token: `current_bearer`. -/
  bearer : Option Text
  trace : TraceContext

section

variable {κ : Type} (jwt : Jwt κ)

/-- A node at the time of a call. -/
structure Node (κ : Type) where
  verifier : Option Verifier
  /-- What the caches of its verifier answer. -/
  keyOf : Opened → Except AuthError (SigningKey κ)
  now : ℕ
  metadataUrl : Option (List UInt8)
  /-- The trace that it would begin. -/
  fresh : TraceContext

def Node.door (n : Node κ) : Door := ⟨n.verifier.map fun v => v.gate jwt n.keyOf n.now, n.metadataUrl⟩

/-- `trace_of`. -/
def Node.traceOf (n : Node κ) (r : Request) : TraceContext := TraceContext.inbound n.fresh r.headers.traceparent

/-- The node takes a request: `identity` and `traced` of the data surface. -/
def enter (n : Node κ) (r : Request) : Except Rejected Scope :=
  (dataIdentity (n.door jwt) r.headers).map fun p => ⟨p.1, p.2, n.traceOf r⟩

/-- The same for a tool call over the agents' surface. -/
def enterMcp (n : Node κ) (path : Text) (r : Request) : Option Scope :=
  match mcpCall (n.door jwt) path r.headers with
  | .passed (.ok (id, token)) => some ⟨id, token, n.traceOf r⟩
  | _ => none

/-! ### What goes on -/

/-- `with_caller`: the leaf, the token and the trace. -/
def withCaller (agentId : Text) (s : Scope) : Request :=
  .of (some agentId) (s.bearer.map fun token => "Bearer ".toList ++ token) (some s.trace.traceparent)

/-- `with_identity`. -/
def withIdentity (s : Scope) : Request := withCaller s.id.agentId s

/-- The control plane, as far as a request for a pond goes through it. -/
structure Control where
  /-- `replay_bearer`. -/
  replays : Bool
  fresh : TraceContext

/-- `CallerAuth`. -/
structure CallerAuth where
  agentId : Option Text
  bearer : Option Text
  traceparent : Option Text

/-- `caller_auth`. -/
def Control.callerAuth (cp : Control) (r : Request) (ownerIdentity : Text) : CallerAuth where
  agentId := r.headers.agentId.or ((some ownerIdentity).filter (· ≠ []))
  bearer := if cp.replays then r.headers.authorization else none
  traceparent := some (TraceContext.inbound cp.fresh r.headers.traceparent).traceparent

/-- The request of `materialize`. -/
def CallerAuth.request (c : CallerAuth) : Request := .of c.agentId c.bearer c.traceparent

/-- How a call gets from one node to another. -/
inductive Hop where
  /-- The forwarder. -/
  | forward
  /-- `create_pond`: the control plane asks the owner to materialize the pond. -/
  | create (cp : Control)

/-- What the next node is sent. -/
def Hop.send (s : Scope) : Hop → Request
  | .forward => withIdentity s
  | .create cp => (cp.callerAuth (withCaller s.id.agentId s) s.id.agentId).request

/-- The token goes along. -/
def Hop.replays : Hop → Bool
  | .forward => true
  | .create cp => cp.replays

/-- A call, from where it is, over these nodes. -/
def walk (s : Scope) : List (Hop × Node κ) → Except Rejected Scope
  | [] => .ok s
  | (hop, n) :: way =>
    match enter jwt n (hop.send s) with
    | .error e => .error e
    | .ok next => walk next way

/-- How a caller comes in. -/
inductive Entry where
  | data
  | mcp (path : Text)
  /-- `pond create`: the control plane is asked, and asks the owner. -/
  | create (cp : Control) (ownerIdentity : Text)

/-- The first node takes the call. -/
def arrive (entry : Entry) (n : Node κ) (r : Request) : Option Scope :=
  match entry with
  | .data => (enter jwt n r).toOption
  | .mcp path => enterMcp jwt n path r
  | .create cp ownerIdentity => (enter jwt n (cp.callerAuth r ownerIdentity).request).toOption

end

/-! ### Visible texts -/

theorem metadataValue_of_visible {t : Text} (h : t.all isVisible = true) : metadataValue t = some t := if_pos h

theorem bind_metadataValue {header : Option Text} (h : Visible header) : header.bind metadataValue = header := by
  cases header with
  | none => rfl
  | some t => exact metadataValue_of_visible (h t rfl)

theorem all_visible_trim {t : Text} (h : t.all isVisible = true) : (trim t).all isVisible = true := by
  rw [List.all_eq_true] at h ⊢
  exact fun c hc => h c (RustStr.mem_of_mem_trim hc)

theorem isVisible_of_hexDigLc {c : Char} (h : HexDigLc c) : isVisible c = true := by
  have hrange : 48 ≤ c.toNat ∧ c.toNat ≤ 102 := by
    simp only [HexDigLc, Char.le_def, UInt32.le_iff_toNat_le] at h
    rcases h with ⟨h1, h2⟩ | ⟨h1, h2⟩
    · exact ⟨h1, h2.trans (by decide)⟩
    · exact ⟨le_trans (by decide) h1, h2⟩
  simp only [isVisible, Bool.or_eq_true, Bool.and_eq_true, decide_eq_true_eq]
  omega

theorem visible_traceparent (t : TraceContext) : t.traceparent.all isVisible = true := by
  have hid {s : Text} {len : ℕ} (h : isId s len = true) : s.all isVisible = true :=
    List.all_eq_true.2 fun c hc => isVisible_of_hexDigLc ((isId_iff.1 h).1.2 c hc)
  have hflags : (if t.sampled then "01".toList else "00".toList).all isVisible = true := by cases t.sampled <;> decide
  simp only [TraceContext.traceparent, List.all_append, List.all_cons, Bool.and_eq_true]
  exact ⟨by decide, by decide, hid t.traceId_ok, by decide, hid t.spanId_ok, by decide, hflags⟩

/-! ### Tokens -/

/-- A token as it is read off a header. -/
structure IsToken (token : Text) : Prop where
  visible : token.all isVisible = true
  trimmed : trim token = token
  ne_nil : token ≠ []

theorem isToken_of_bears {value token : Text} (hvisible : value.all isVisible = true) (h : Bears value token) :
    IsToken token := by
  obtain ⟨scheme, rest, rfl, -, rfl⟩ := h.written
  rw [List.all_append, List.all_cons, Bool.and_eq_true, Bool.and_eq_true] at hvisible
  exact ⟨all_visible_trim hvisible.2.2, trim_trim rest, h.token⟩

/-- A token that is replayed is read as it was. -/
theorem IsToken.bears {token : Text} (h : IsToken token) : Bears ("Bearer ".toList ++ token) token :=
  ⟨⟨"Bearer".toList, token, rfl, by decide, h.trimmed.symm⟩, h.ne_nil⟩

theorem IsToken.replayed {token : Text} (h : IsToken token) :
    metadataValue ("Bearer ".toList ++ token) = some ("Bearer ".toList ++ token) := by
  refine metadataValue_of_visible ?_
  rw [List.all_append, h.visible]
  decide

/-! ### Identities -/

/-- A leaf that is claimed, or what stands for one that is not. -/
def leafOf (header : Option Text) (default : Text) : Text :=
  match header.map trim with
  | some (c :: s) => c :: s
  | _ => default

theorem claimed_eq (header : Option Text) : Identity.claimed header = ⟨leafOf header "anonymous".toList, [], [], false⟩ := rfl

theorem verifiedIdentity_eq (subject issuer : Text) (claimed : Option Text) :
    verifiedIdentity subject issuer claimed = ⟨leafOf claimed (trim subject), trim subject, trim issuer, true⟩ := rfl

theorem leafOf_some {t : Text} (h : trim t ≠ []) (default : Text) : leafOf (some t) default = trim t := by
  obtain ⟨c, s, hcs⟩ := List.exists_cons_of_ne_nil h
  unfold leafOf
  rw [Option.map_some, hcs]

theorem leafOf_cases (header : Option Text) (default : Text) :
    leafOf header default = default ∨ ∃ t, header = some t ∧ trim t ≠ [] ∧ leafOf header default = trim t := by
  cases header with
  | none => exact .inl rfl
  | some t =>
    by_cases ht : trim t = []
    · left
      unfold leafOf
      rw [Option.map_some, ht]
    · exact .inr ⟨t, rfl, ht, leafOf_some ht default⟩

/-- **A leaf that is sent on** is read as it was: what no header can have is what stands for it. -/
theorem leafOf_relayed {header : Option Text} {default : Text} (hvisible : Visible header) (htrim : trim default = default)
    (hne : default ≠ []) : leafOf (metadataValue (leafOf header default)) default = leafOf header default := by
  rcases leafOf_cases header default with hleaf | ⟨t, rfl, ht, hleaf⟩
  · rw [hleaf]
    unfold metadataValue
    split_ifs
    · rw [leafOf_some (by rwa [htrim]), htrim]
    · rfl
  · rw [hleaf, metadataValue_of_visible (all_visible_trim (hvisible t rfl)), leafOf_some (by rwa [trim_trim]), trim_trim]

theorem verifiedIdentity_relayed {subject issuer : Text} {claimed : Option Text} (hvisible : Visible claimed)
    (hne : trim subject ≠ []) :
    verifiedIdentity subject issuer (metadataValue (verifiedIdentity subject issuer claimed).agentId) =
      verifiedIdentity subject issuer claimed := by
  simp only [verifiedIdentity_eq, leafOf_relayed hvisible (trim_trim subject) hne]

theorem claimed_relayed {header : Option Text} (hvisible : Visible header) :
    Identity.claimed (metadataValue (Identity.claimed header).agentId) = Identity.claimed header := by
  simp only [claimed_eq, leafOf_relayed hvisible (show trim "anonymous".toList = "anonymous".toList by decide)
    (show "anonymous".toList ≠ [] by decide)]

/-! ### What a token proves -/

section

variable {κ : Type} {jwt : Jwt κ} {Signed : Text → κ → Algorithm → Prop}

/-- The subject and the issuer that a token names. -/
def Names (jwt : Jwt κ) (token subject issuer : Text) : Prop :=
  ∃ c s, jwt.payload (trim token) c ∧ c.iss = .parsed (.one issuer) ∧ c.sub = .parsed s ∧ subject = trim s

theorem Names.unique {token subject issuer subject' issuer' : Text} (h : Names jwt token subject issuer)
    (h' : Names jwt token subject' issuer') : subject = subject' ∧ issuer = issuer' := by
  obtain ⟨c, s, hc, hiss, hsub, rfl⟩ := h
  obtain ⟨c', s', hc', hiss', hsub', rfl⟩ := h'
  obtain rfl := Service.payload_unique hc hc'
  rw [hiss] at hiss'
  rw [hsub] at hsub'
  cases hiss'
  cases hsub'
  exact ⟨rfl, rfl⟩

/-- **What a token proves** depends on the token alone: whichever verifier lets it in, it is for the subject and the issuer
that the token names, and the leaf that is claimed. -/
theorem verify_names (hjwt : jwt.Checks Signed) {v : Verifier} {keyOf : Opened → Except AuthError (SigningKey κ)} {now : ℕ}
    {token : Text} {claimed : Option Text} {id : Identity} (h : v.verify jwt keyOf now token claimed = .ok id) :
    ∃ subject issuer, Names jwt token subject issuer ∧ trim subject ≠ [] ∧
      id = verifiedIdentity subject issuer claimed ∧
      ∀ claimed', v.verify jwt keyOf now token claimed' = .ok (verifiedIdentity subject issuer claimed') := by
  unfold Verifier.verify at h ⊢
  cases hopen : v.opened jwt token with
  | error e =>
    rw [hopen] at h
    cases h
  | ok o =>
    obtain ⟨htoken, -, -, iss, uri, c, hiss, hc, hciss⟩ := Verifier.opened_ok hopen
    rw [hopen] at h
    simp only [hiss] at h ⊢
    cases hkey : keyOf o with
    | error e =>
      rw [hkey] at h
      cases h
    | ok key =>
      simp only [hkey] at h ⊢
      obtain ⟨hdeclared, sub, hdecode, hne, rfl⟩ := Verifier.closed_ok h
      obtain ⟨c', hc', -, hsub⟩ := hjwt.passes _ _ _ _ _ hdecode
      obtain rfl := Service.payload_unique hc hc'
      obtain ⟨s, rfl⟩ : ∃ s, sub = some s := by
        cases sub with
        | none => exact absurd rfl hne
        | some s => exact ⟨s, rfl⟩
      refine ⟨trim s, iss, ⟨c, s, htoken ▸ hc, hciss, hsub s rfl, rfl⟩, by rwa [trim_trim], rfl, fun claimed' => ?_⟩
      have hfinish : Verifier.closed.finish v jwt o key claimed' now iss = .ok (verifiedIdentity (trim s) iss claimed') := by
        unfold Verifier.closed.finish
        rw [hdecode]
        exact if_neg hne
      unfold Verifier.closed
      cases halg : key.alg with
      | none => exact hfinish
      | some declared => exact (if_neg (not_not.2 (hdeclared declared halg))).trans hfinish

/-! ### One node -/

/-- Who is behind a scope has no verifier before him. -/
structure Claimed (s : Scope) : Prop where
  bearer : s.bearer = none
  id : ∃ header, Visible header ∧ s.id = .claimed header

/-- Who is behind a scope is known by this token. -/
structure Known (jwt : Jwt κ) (token : Text) (s : Scope) : Prop where
  bearer : s.bearer = some token
  isToken : IsToken token
  id : ∃ subject issuer claimed, Names jwt token subject issuer ∧ trim subject ≠ [] ∧ Visible claimed ∧
    s.id = verifiedIdentity subject issuer claimed

variable {n : Node κ} {r : Request} {s s' : Scope}

theorem enter_eq_ok : enter jwt n r = .ok s ↔ (n.door jwt).Admits r.headers s.id s.bearer ∧ s.trace = n.traceOf r := by
  rw [← dataIdentity_ok]
  unfold enter
  cases hid : dataIdentity (n.door jwt) r.headers with
  | error e => simp [Except.map]
  | ok p =>
    obtain ⟨id, token⟩ := p
    obtain ⟨id', bearer, trace⟩ := s
    simp only [Except.map, Except.ok.injEq, Scope.mk.injEq, Prod.mk.injEq]
    exact ⟨fun ⟨h1, h2, h3⟩ => ⟨⟨h1, h2⟩, h3.symm⟩, fun ⟨⟨h1, h2⟩, h3⟩ => ⟨h1, h2, h3.symm⟩⟩

/-- Without a verifier a node takes every call, by what it claims, and keeps no token. -/
theorem enter_unverified (hn : n.verifier = none) :
    enter jwt n r = .ok ⟨.claimed r.headers.agentId, none, n.traceOf r⟩ := by
  rw [enter_eq_ok]
  unfold Door.Admits Node.door
  rw [hn]
  exact ⟨⟨rfl, rfl⟩, rfl⟩

theorem enter_verified {v : Verifier} (hn : n.verifier = some v) : enter jwt n r = .ok s ↔
    (∃ value token, r.headers.authorization = some value ∧ Bears value token ∧ s.bearer = some token ∧
      v.verify jwt n.keyOf n.now token r.headers.agentId = .ok s.id) ∧ s.trace = n.traceOf r := by
  rw [enter_eq_ok]
  unfold Door.Admits Node.door
  rw [hn]
  exact Iff.rfl

theorem claimed_of_enter (hn : n.verifier = none) (h : enter jwt n r = .ok s) : Claimed s := by
  rw [enter_unverified hn] at h
  obtain rfl := Except.ok.inj h
  exact ⟨rfl, _, r.agentId, rfl⟩

theorem known_of_enter (hjwt : jwt.Checks Signed) {v : Verifier} (hn : n.verifier = some v) (h : enter jwt n r = .ok s) :
    ∃ value token, r.headers.authorization = some value ∧ Bears value token ∧ Known jwt token s ∧
      v.verify jwt n.keyOf n.now token r.headers.agentId = .ok s.id := by
  obtain ⟨⟨value, token, hvalue, hbears, hbearer, hverify⟩, -⟩ := (enter_verified hn).1 h
  obtain ⟨subject, issuer, hnames, hne, hid, -⟩ := verify_names hjwt hverify
  exact ⟨value, token, hvalue, hbears,
    ⟨hbearer, isToken_of_bears (r.authorization value hvalue) hbears, subject, issuer, _, hnames, hne, r.agentId, hid⟩,
    hverify⟩

/-! ### One hop -/

/-- The leaf goes along, if a header can have it. The control plane is told it once more, as the owner of the pond. -/
theorem send_agentId (s : Scope) (hop : Hop) : (hop.send s).headers.agentId = metadataValue s.id.agentId := by
  cases hop with
  | forward => rfl
  | create cp =>
    show ((metadataValue s.id.agentId).or ((some s.id.agentId).filter (· ≠ []))).bind metadataValue = _
    by_cases hvisible : s.id.agentId.all isVisible = true
    · rw [metadataValue_of_visible hvisible, Option.some_or, Option.bind_some, metadataValue_of_visible hvisible]
    · have hnone : metadataValue s.id.agentId = none := if_neg hvisible
      rw [hnone, Option.none_or]
      cases hfilter : (some s.id.agentId).filter (· ≠ []) with
      | none => rfl
      | some t =>
        obtain ⟨ht, -⟩ := Option.filter_eq_some_iff.1 hfilter
        rw [← Option.some.inj ht]
        exact hnone

theorem send_authorization_of_none (h : s.bearer = none) (hop : Hop) : (hop.send s).headers.authorization = none := by
  have hcaller : (withCaller s.id.agentId s).headers.authorization = none := by
    unfold withCaller Request.of
    rw [h]
    rfl
  cases hop with
  | forward => exact hcaller
  | create cp =>
    show (if cp.replays then (withCaller s.id.agentId s).headers.authorization else none).bind metadataValue = none
    rw [hcaller, ite_self, Option.bind_none]

theorem send_authorization {token : Text} (h : s.bearer = some token) (htoken : IsToken token) (hop : Hop) :
    (hop.send s).headers.authorization = if hop.replays then some ("Bearer ".toList ++ token) else none := by
  have hcaller : (withCaller s.id.agentId s).headers.authorization = some ("Bearer ".toList ++ token) := by
    show (s.bearer.map fun token => "Bearer ".toList ++ token).bind metadataValue = _
    rw [h, Option.map_some, Option.bind_some, htoken.replayed]
  cases hop with
  | forward => exact hcaller
  | create cp =>
    show (if cp.replays then (withCaller s.id.agentId s).headers.authorization else none).bind metadataValue = _
    rw [hcaller]
    unfold Hop.replays
    split_ifs
    · rw [Option.bind_some, htoken.replayed]
    · rfl

/-- The trace survives the hop. -/
theorem traceOf_send (n : Node κ) (s : Scope) (hop : Hop) : (n.traceOf (hop.send s)).traceId = s.trace.traceId := by
  have hcaller : (withCaller s.id.agentId s).headers.traceparent = some s.trace.traceparent :=
    metadataValue_of_visible (visible_traceparent s.trace)
  unfold Node.traceOf
  cases hop with
  | forward =>
    show (TraceContext.inbound n.fresh (withCaller s.id.agentId s).headers.traceparent).traceId = _
    rw [hcaller]
    exact TraceContext.inbound_traceparent n.fresh s.trace
  | create cp =>
    show (TraceContext.inbound n.fresh (metadataValue
      (TraceContext.inbound cp.fresh (withCaller s.id.agentId s).headers.traceparent).traceparent)).traceId = _
    rw [metadataValue_of_visible (visible_traceparent _), TraceContext.inbound_traceparent, hcaller]
    exact TraceContext.inbound_traceparent cp.fresh s.trace

/-- A node lets the token in, at the time of the call. -/
def Accepts (jwt : Jwt κ) (n : Node κ) (v : Verifier) (token : Text) : Prop :=
  ∃ claimed id, v.verify jwt n.keyOf n.now token claimed = .ok id

/-- **A hop without a token** leaves a claim as it is, and leads to no node with a verifier. -/
theorem enter_claimed (hs : Claimed s) (hop : Hop) :
    (∃ s', enter jwt n (hop.send s) = .ok s') ↔ n.verifier = none := by
  constructor
  · rintro ⟨s', h⟩
    cases hn : n.verifier with
    | none => rfl
    | some v =>
      obtain ⟨⟨value, token, hvalue, -⟩, -⟩ := (enter_verified hn).1 h
      rw [send_authorization_of_none hs.bearer hop] at hvalue
      cases hvalue
  · intro hn
    exact ⟨_, enter_unverified hn⟩

theorem claimed_hop (hs : Claimed s) {hop : Hop} (hn : n.verifier = none) (h : enter jwt n (hop.send s) = .ok s') :
    Claimed s' ∧ s'.id = s.id := by
  refine ⟨claimed_of_enter hn h, ?_⟩
  rw [enter_unverified hn] at h
  obtain rfl := Except.ok.inj h
  obtain ⟨header, hvisible, hid⟩ := hs.id
  show Identity.claimed (hop.send s).headers.agentId = s.id
  rw [send_agentId, hid, claimed_relayed hvisible]

/-- **A hop with a token** leads to a node with a verifier just where the token goes along and that verifier lets it in. -/
theorem enter_known (hjwt : jwt.Checks Signed) {token : Text} (hs : Known jwt token s) {v : Verifier}
    (hn : n.verifier = some v) (hop : Hop) :
    (∃ s', enter jwt n (hop.send s) = .ok s') ↔ hop.replays = true ∧ Accepts jwt n v token := by
  have hauth := send_authorization hs.bearer hs.isToken hop
  constructor
  · rintro ⟨s', h⟩
    obtain ⟨⟨value, token', hvalue, hbears, -, hverify⟩, -⟩ := (enter_verified hn).1 h
    rw [hauth] at hvalue
    split_ifs at hvalue with hreplays
    cases hvalue
    have hsame : some token' = some token := (bearer_eq_some.2 hbears).symm.trans (bearer_eq_some.2 hs.isToken.bears)
    obtain rfl := Option.some.inj hsame
    exact ⟨hreplays, _, _, hverify⟩
  · rintro ⟨hreplays, claimed, id, hverify⟩
    obtain ⟨subject, issuer, -, -, -, hall⟩ := verify_names hjwt hverify
    rw [if_pos hreplays] at hauth
    exact ⟨⟨_, some token, n.traceOf (hop.send s)⟩,
      (enter_verified hn).2 ⟨⟨_, token, hauth, hs.isToken.bears, rfl, hall _⟩, rfl⟩⟩

theorem known_hop (hjwt : jwt.Checks Signed) {token : Text} (hs : Known jwt token s) {v : Verifier}
    (hn : n.verifier = some v) {hop : Hop} (h : enter jwt n (hop.send s) = .ok s') :
    Known jwt token s' ∧ s'.id = s.id ∧ hop.replays = true ∧ ∃ claimed, v.verify jwt n.keyOf n.now token claimed = .ok s'.id := by
  have hreplays := ((enter_known hjwt hs hn hop).1 ⟨s', h⟩).1
  have hauth := send_authorization hs.bearer hs.isToken hop
  rw [if_pos hreplays] at hauth
  obtain ⟨value, token', hvalue, hbears, hknown, hverify⟩ := known_of_enter hjwt hn h
  rw [hauth] at hvalue
  cases hvalue
  have hsame : some token' = some token := (bearer_eq_some.2 hbears).symm.trans (bearer_eq_some.2 hs.isToken.bears)
  obtain rfl := Option.some.inj hsame
  refine ⟨hknown, ?_, hreplays, _, hverify⟩
  obtain ⟨subject, issuer, claimed, hnames, hne, hvisible, hid⟩ := hs.id
  obtain ⟨subject', issuer', hnames', -, hid', -⟩ := verify_names hjwt hverify
  obtain ⟨rfl, rfl⟩ := hnames.unique hnames'
  rw [hid', send_agentId, hid, verifiedIdentity_relayed hvisible hne]

/-! ### The whole way -/

/-- The node that a call is at in the end. -/
def lastOf (n : Node κ) : List (Hop × Node κ) → Node κ
  | [] => n
  | (_, m) :: way => lastOf m way

theorem lastOf_unverified {way : List (Hop × Node κ)} (hn : n.verifier = none)
    (hway : ∀ stop ∈ way, stop.2.verifier = none) : (lastOf n way).verifier = none := by
  induction way generalizing n with
  | nil => exact hn
  | cons stop way ih =>
    rw [List.forall_mem_cons] at hway
    exact ih hway.1 hway.2

theorem walk_trace {way : List (Hop × Node κ)} (h : walk jwt s way = .ok s') : s'.trace.traceId = s.trace.traceId := by
  induction way generalizing s with
  | nil =>
    cases h
    rfl
  | cons stop way ih =>
    obtain ⟨hop, n⟩ := stop
    unfold walk at h
    cases hnext : enter jwt n (hop.send s) with
    | error e =>
      rw [hnext] at h
      cases h
    | ok next =>
      rw [hnext] at h
      rw [ih h, (enter_eq_ok.1 hnext).2, traceOf_send]

/-- Behind a node without a verifier there is none with one, and the claim stays. -/
theorem walk_claimed {way : List (Hop × Node κ)} (hs : Claimed s) (h : walk jwt s way = .ok s') :
    (∀ stop ∈ way, stop.2.verifier = none) ∧ Claimed s' ∧ s'.id = s.id := by
  induction way generalizing s with
  | nil =>
    cases h
    exact ⟨nofun, hs, rfl⟩
  | cons stop way ih =>
    obtain ⟨hop, n⟩ := stop
    unfold walk at h
    cases hnext : enter jwt n (hop.send s) with
    | error e =>
      rw [hnext] at h
      cases h
    | ok next =>
      rw [hnext] at h
      have hn := (enter_claimed hs hop).1 ⟨next, hnext⟩
      obtain ⟨hclaimed, hid⟩ := claimed_hop hs hn hnext
      obtain ⟨hway, hlast, hsame⟩ := ih hclaimed h
      exact ⟨List.forall_mem_cons.2 ⟨hn, hway⟩, hlast, hsame.trans hid⟩

/-- Where the last node has a verifier, all on the way have one, and it knows the caller as the first. -/
theorem walk_known (hjwt : jwt.Checks Signed) {token : Text} {way : List (Hop × Node κ)} (hs : Known jwt token s)
    {v : Verifier} (hn : n.verifier = some v) (hverify : ∃ claimed, v.verify jwt n.keyOf n.now token claimed = .ok s.id)
    (h : walk jwt s way = .ok s') :
    ((lastOf n way).verifier = none → Claimed s') ∧
      ∀ w, (lastOf n way).verifier = some w → Known jwt token s' ∧ s'.id = s.id ∧
        (∀ stop ∈ way, stop.1.replays = true ∧ stop.2.verifier.isSome = true) ∧
        ∃ claimed, w.verify jwt (lastOf n way).keyOf (lastOf n way).now token claimed = .ok s'.id := by
  induction way generalizing s n v with
  | nil =>
    cases h
    refine ⟨fun hnone => ?_, fun w hw => ?_⟩
    · cases hn.symm.trans hnone
    · cases hn.symm.trans hw
      exact ⟨hs, rfl, nofun, hverify⟩
  | cons stop way ih =>
    obtain ⟨hop, m⟩ := stop
    unfold walk at h
    cases hnext : enter jwt m (hop.send s) with
    | error e =>
      rw [hnext] at h
      cases h
    | ok next =>
      rw [hnext] at h
      cases hm : m.verifier with
      | none =>
        -- here the token is dropped
        obtain ⟨hway, hclaimed, -⟩ := walk_claimed (claimed_of_enter hm hnext) h
        have hlast : (lastOf m way).verifier = none := lastOf_unverified hm hway
        refine ⟨fun _ => hclaimed, fun w hw => ?_⟩
        cases hlast.symm.trans hw
      | some u =>
        obtain ⟨hknown, hid, hreplays, hu⟩ := known_hop hjwt hs hm hnext
        obtain ⟨hnone, hsome⟩ := ih hknown hm hu h
        refine ⟨hnone, fun w hw => ?_⟩
        obtain ⟨hlast, hsame, hway, hw⟩ := hsome w hw
        refine ⟨hlast, hsame.trans hid, List.forall_mem_cons.2 ⟨⟨hreplays, ?_⟩, hway⟩, hw⟩
        rw [hm]
        rfl

/-- A node with a verifier takes the call, with the token of the call. -/
def Takes (jwt : Jwt κ) (bearer : Option Text) (stop : Hop × Node κ) : Prop :=
  stop.1.replays = true ∧ ∃ v token, stop.2.verifier = some v ∧ bearer = some token ∧ Accepts jwt stop.2 v token

theorem walk_claimed_iff {way : List (Hop × Node κ)} (hs : Claimed s) :
    (∃ s', walk jwt s way = .ok s') ↔ ∀ stop ∈ way, stop.2.verifier = none := by
  refine ⟨fun ⟨s', h⟩ => (walk_claimed hs h).1, fun hway => ?_⟩
  induction way generalizing s with
  | nil => exact ⟨s, rfl⟩
  | cons stop way ih =>
    obtain ⟨hop, m⟩ := stop
    have hm : m.verifier = none := hway _ List.mem_cons_self
    obtain ⟨next, hnext⟩ : ∃ next, enter jwt m (hop.send s) = .ok next := (enter_claimed hs hop).2 hm
    obtain ⟨s', hs'⟩ := ih (claimed_hop hs hm hnext).1 fun x hx => hway x (List.mem_cons_of_mem _ hx)
    refine ⟨s', ?_⟩
    unfold walk
    rw [hnext]
    exact hs'

theorem walk_known_iff (hjwt : jwt.Checks Signed) {token : Text} {way : List (Hop × Node κ)} (hs : Known jwt token s) :
    (∃ s', walk jwt s way = .ok s') ↔ ∃ front rest, way = front ++ rest ∧ (∀ stop ∈ front, Takes jwt (some token) stop) ∧
      ∀ stop ∈ rest, stop.2.verifier = none := by
  induction way generalizing s with
  | nil => exact ⟨fun _ => ⟨[], [], rfl, nofun, nofun⟩, fun _ => ⟨s, rfl⟩⟩
  | cons stop way ih =>
    obtain ⟨hop, m⟩ := stop
    constructor
    · rintro ⟨s', h⟩
      unfold walk at h
      cases hnext : enter jwt m (hop.send s) with
      | error e =>
        rw [hnext] at h
        cases h
      | ok next =>
        rw [hnext] at h
        cases hm : m.verifier with
        | none =>
          have hway := (walk_claimed (claimed_of_enter hm hnext) h).1
          exact ⟨[], _, rfl, nofun, List.forall_mem_cons.2 ⟨hm, hway⟩⟩
        | some u =>
          obtain ⟨hreplays, haccepts⟩ := (enter_known hjwt hs hm hop).1 ⟨next, hnext⟩
          obtain ⟨front, rest, rfl, hfront, hrest⟩ := (ih (known_hop hjwt hs hm hnext).1).1 ⟨s', h⟩
          refine ⟨(hop, m) :: front, rest, rfl, List.forall_mem_cons.2 ⟨⟨hreplays, u, token, hm, rfl, haccepts⟩, hfront⟩, hrest⟩
    · rintro ⟨front, rest, hway, hfront, hrest⟩
      cases front with
      | nil =>
        rw [List.nil_append] at hway
        rw [← hway] at hrest
        have hm : m.verifier = none := hrest _ List.mem_cons_self
        have hnext : enter jwt m (hop.send s) = .ok ⟨.claimed (hop.send s).headers.agentId, none, m.traceOf (hop.send s)⟩ :=
          enter_unverified hm
        obtain ⟨s', hs'⟩ := (walk_claimed_iff (claimed_of_enter hm hnext)).2 fun x hx => hrest x (List.mem_cons_of_mem _ hx)
        refine ⟨s', ?_⟩
        unfold walk
        rw [hnext]
        exact hs'
      | cons stop front =>
        obtain ⟨rfl, rfl⟩ := List.cons.inj hway
        obtain ⟨hreplays, v, token', hm, htoken, haccepts⟩ := hfront _ List.mem_cons_self
        cases htoken
        obtain ⟨next, hnext⟩ := (enter_known hjwt hs hm hop).2 ⟨hreplays, haccepts⟩
        obtain ⟨s', hs'⟩ := (ih (known_hop hjwt hs hm hnext).1).2
          ⟨front, rest, rfl, fun x hx => hfront x (List.mem_cons_of_mem _ hx), hrest⟩
        refine ⟨s', ?_⟩
        unfold walk
        rw [hnext]
        exact hs'

/-! ### Coming in -/

theorem ok_of_toOption {ε α : Type} {x : Except ε α} {a : α} (h : x.toOption = some a) : x = .ok a := by
  cases x with
  | error e => cases h
  | ok b => exact congrArg Except.ok (Option.some.inj h)

/-- The agents' surface lets in whom the data surface does. -/
theorem enter_of_enterMcp {path : Text} (h : enterMcp jwt n path r = some s) : enter jwt n r = .ok s := by
  unfold enterMcp at h
  split at h
  · rename_i id token hcall
    cases h
    refine enter_eq_ok.2 ⟨?_, rfl⟩
    by_cases hpath : path = PROTECTED_RESOURCE_PATH
    · subst hpath
      unfold Door.Admits
      unfold mcpCall mcpServe mcpIdentity verifyBearer at hcall
      cases hgate : (n.door jwt).gate with
      | none =>
        simp only [hgate, HttpAnswer.passed.injEq, Except.ok.injEq, Prod.mk.injEq] at hcall
        exact ⟨hcall.1.symm, hcall.2.symm⟩
      | some g => simp [hgate] at hcall
    · exact (mcpCall_ok hpath).1 hcall
  · cases h

/-- **The first node** knows nobody but by a token of his own. -/
theorem arrive_cases (hjwt : jwt.Checks Signed) {entry : Entry} (h : arrive jwt entry n r = some s) :
    (n.verifier = none ∧ Claimed s) ∨ ∃ v value token, n.verifier = some v ∧ r.headers.authorization = some value ∧
      Bears value token ∧ Known jwt token s ∧ ∃ claimed, v.verify jwt n.keyOf n.now token claimed = .ok s.id := by
  have hdata {q : Request} (hauth : ∀ value, q.headers.authorization = some value → r.headers.authorization = some value)
      (h : enter jwt n q = .ok s) : (n.verifier = none ∧ Claimed s) ∨ ∃ v value token, n.verifier = some v ∧
        r.headers.authorization = some value ∧ Bears value token ∧ Known jwt token s ∧
        ∃ claimed, v.verify jwt n.keyOf n.now token claimed = .ok s.id := by
    cases hn : n.verifier with
    | none => exact .inl ⟨rfl, claimed_of_enter hn h⟩
    | some v =>
      obtain ⟨value, token, hvalue, hbears, hknown, hverify⟩ := known_of_enter hjwt hn h
      exact .inr ⟨v, value, token, rfl, hauth value hvalue, hbears, hknown, _, hverify⟩
  cases entry with
  | data => exact hdata (fun _ => id) (ok_of_toOption h)
  | mcp path => exact hdata (fun _ => id) (enter_of_enterMcp h)
  | create cp ownerIdentity =>
    refine hdata (fun value hvalue => ?_) (ok_of_toOption h)
    obtain ⟨t, ht, hvalue⟩ := Option.bind_eq_some_iff.1 hvalue
    unfold Control.callerAuth at ht
    dsimp only at ht
    split_ifs at ht
    rw [ht]
    rwa [metadataValue_of_visible (r.authorization t ht)] at hvalue

/-- **A call is from who it is from, all the way**: where a node with a verifier takes it, it knows the caller as the first
node did, by its own verification of the token that the caller has presented, and every node before has verified it too;
where a node without one takes it, the caller is not verified, and no token goes on. The trace is one. What stops a call is
a verifier that does not let the token in, a control plane that does not replay it, or that it was dropped on the way. -/
theorem identity_relayed (hjwt : jwt.Checks Signed) {entry : Entry} (h : arrive jwt entry n r = some s)
    (way : List (Hop × Node κ)) :
    (∀ s', walk jwt s way = .ok s' → s'.trace.traceId = s.trace.traceId ∧
      ((lastOf n way).verifier = none → s'.id.verified = false ∧ s'.bearer = none ∧ (n.verifier = none → s'.id = s.id)) ∧
      ∀ v, (lastOf n way).verifier = some v → s'.id = s.id ∧ n.verifier.isSome = true ∧
        (∀ stop ∈ way, stop.1.replays = true ∧ stop.2.verifier.isSome = true) ∧
        ∃ value token claimed, r.headers.authorization = some value ∧ Bears value token ∧ s'.bearer = some token ∧
          v.verify jwt (lastOf n way).keyOf (lastOf n way).now token claimed = .ok s'.id) ∧
    ((∃ s', walk jwt s way = .ok s') ↔ ∃ front rest, way = front ++ rest ∧ (∀ stop ∈ front, Takes jwt s.bearer stop) ∧
      ∀ stop ∈ rest, stop.2.verifier = none) := by
  have hunverified {t : Scope} (ht : Claimed t) : t.id.verified = false ∧ t.bearer = none := by
    obtain ⟨header, -, hid⟩ := ht.id
    rw [hid]
    exact ⟨rfl, ht.bearer⟩
  rcases arrive_cases hjwt h with ⟨hn, hclaimed⟩ | ⟨v, value, token, hn, hvalue, hbears, hknown, hverify⟩
  · refine ⟨fun s' hs' => ?_, ?_⟩
    · obtain ⟨hway, hlast, hid⟩ := walk_claimed hclaimed hs'
      have hnone : (lastOf n way).verifier = none := lastOf_unverified hn hway
      refine ⟨walk_trace hs', fun _ => ⟨(hunverified hlast).1, (hunverified hlast).2, fun _ => hid⟩, fun w hw => ?_⟩
      cases hnone.symm.trans hw
    · rw [walk_claimed_iff hclaimed]
      constructor
      · intro hway
        exact ⟨[], way, rfl, nofun, hway⟩
      · rintro ⟨front, rest, rfl, hfront, hrest⟩
        cases front with
        | nil => exact hrest
        | cons stop front =>
          obtain ⟨-, w, token, -, hbearer, -⟩ := hfront stop List.mem_cons_self
          cases hclaimed.bearer.symm.trans hbearer
  · refine ⟨fun s' hs' => ?_, ?_⟩
    · obtain ⟨hnone, hsome⟩ := walk_known hjwt hknown hn hverify hs'
      refine ⟨walk_trace hs', fun hlast => ⟨(hunverified (hnone hlast)).1, (hunverified (hnone hlast)).2, fun hno => ?_⟩,
        fun w hw => ?_⟩
      · cases hn.symm.trans hno
      · obtain ⟨hlast, hid, hway, claimed, hw⟩ := hsome w hw
        refine ⟨hid, ?_, hway, value, token, claimed, hvalue, hbears, hlast.bearer, hw⟩
        rw [hn]
        rfl
    · rw [hknown.bearer]
      exact walk_known_iff hjwt hknown

end

/-! ### Alice, over three nodes -/

/-- A node that trusts her issuer. -/
def trusting : Node Unit where
  verifier := some oneIssuer
  keyOf _ := .ok ⟨(), some .rs256⟩
  now := 500
  metadataUrl := none
  fresh := ⟨"1f1e1d1c1b1a19181716151413121110".toList, "2a2b2c2d2e2f3031".toList, true, by decide, by decide⟩

/-- Alice allocates a pond, on behalf of her bot. -/
def aliceRequest : Request := .of (some "bot".toList) (some "bearer h.p.s".toList) none

/-- The control plane, which replays the token, and a gateway that has the owner's call land elsewhere. -/
def aliceWay : List (Hop × Node Unit) := [(.create ⟨true, trusting.fresh⟩, trusting), (.forward, trusting)]

theorem identity_relayed_alice : ∃ s s', arrive knowsAlice (.mcp "/mcp".toList) trusting aliceRequest = some s ∧
    walk knowsAlice s aliceWay = .ok s' ∧ s'.id = s.id := by
  have hruns : ((arrive knowsAlice (.mcp "/mcp".toList) trusting aliceRequest).bind fun s =>
      (walk knowsAlice s aliceWay).toOption).isSome = true := by
    decide +kernel
  obtain ⟨s', hs'⟩ := Option.isSome_iff_exists.1 hruns
  obtain ⟨s, hs, hwalk⟩ := Option.bind_eq_some_iff.1 hs'
  have hok := ok_of_toOption hwalk
  exact ⟨s, s', hs, hok, (((identity_relayed knowsAlice_checks hs aliceWay).1 s' hok).2.2 oneIssuer rfl).1⟩

end Latiq.PondNode.Relay
