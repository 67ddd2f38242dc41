/-
This file is the router: the four handlers and the guard, as phases of a request.

Requests share the mesh and the gate, and each of their accesses is atomic on its
own: the three steps of a post, a recording or a redemption under the gate's lock.
A phase is what a request does next with the shared state, together with all that it
has read so far, so that requests may be interleaved at every such step. What a step
draws from outside, the clocks, new ids and keys, is its environment.

The receipt a guard has burned is held by the request from then on: by the phase
that extracts the body, by the mint, and by the envelope that is finally answered.
-/

import Hammurabi.Http
import Hammurabi.Mesh
import Hammurabi.Settlement

namespace Hammurabi

open Json Unicode

/-! ### State and environment -/

/-- The shared state. -/
structure HandoffState where
  mesh : MeshBus
  gate : X402Gate

def HandoffState.withBackend (backend : SettlementBackend) : HandoffState where
  mesh := .new
  gate := .withBackend backend

def HandoffState.new : HandoffState := .withBackend .mock

/-- What one step draws from outside: the clock, the displayed clock, a new id, and the keys, bits
and id of a mint. -/
structure Env where
  now : Int64
  at_ : String
  ulid : Ulid
  entropy : MintEntropy

/-! ### Responses -/

def MeshEventKind.toJson : MeshEventKind → Value
  | .intent => .string "intent"
  | .restriction => .string "restriction"
  | .payment => .string "payment"
  | .credential => .string "credential"
  | .settlement => .string "settlement"
  | .info => .string "info"

def MeshMessage.toJson (message : MeshMessage) : Value := .object [
  ("seq", .ofUInt64 message.seq),
  ("channel", .string message.channel),
  ("sender", .string message.sender),
  ("kind", message.kind.toJson),
  ("body", .string message.body),
  ("at", .string message.at_)]

def PaymentTerms.toJson (terms : PaymentTerms) : Value := .object [
  ("x402_version", .ofUInt64 terms.x402Version.toUInt64),
  ("scheme", .string terms.scheme),
  ("network", .string terms.network),
  ("asset", .string terms.asset),
  ("amount_micro", .ofUInt64 terms.amountMicro),
  ("amount_display", .string terms.amountDisplay),
  ("pay_to", .string terms.payTo),
  ("intent_id", .string terms.intentId),
  ("resolution", .string terms.resolution)]

def PaymentReceipt.toJson (receipt : PaymentReceipt) : Value := .object [
  ("receipt_id", .string receipt.receiptId),
  ("intent_id", .string receipt.intentId),
  ("amount_micro_usdc", .ofUInt64 receipt.amountMicroUsdc),
  ("cleared_at", .ofInt64 receipt.clearedAt)]

/-- The body of a response. -/
inductive Body where
  | feed (lines : List MeshMessage)
  | intent (intent : AgentIntent)
  | receipt (receipt : PaymentReceipt)
  | envelope (envelope : OneShotEnvelope)
  | paymentRequired (terms : PaymentTerms)
  | error (error detail : String)
  | text (text : String)
  | empty

/-- The document a body is the text of, unless it is plain text. -/
def Body.document : Body → Option Value
  | .feed lines => some (.array (lines.map MeshMessage.toJson))
  | .intent announced => some announced.payload
  | .receipt settled => some settled.toJson
  | .envelope packaged => some packaged.toBroadcastJson
  | .paymentRequired terms => some (.object [
      ("error", .string "payment_required"),
      ("accepts", .array [terms.toJson])])
  | .error name detail => some (.object [("error", .string name), ("detail", .string detail)])
  | .text _ => none
  | .empty => none

def Body.bytes (body : Body) : List UInt8 :=
  match body with
  | .text content => utf8 content.toList
  | body =>
    match body.document with
    | some document => utf8 document.text
    | none => []

structure Response where
  status : Nat
  body : Body

/-- The envelope a response carries. -/
def Response.envelope (response : Response) : Option OneShotEnvelope :=
  match response.body with
  | .envelope packaged => some packaged
  | _ => none

theorem Response.envelope_packaged (status : Nat) (packaged : OneShotEnvelope) :
    (Response.mk status (.envelope packaged)).envelope = some packaged := rfl

/-- The answer of a JSON extractor that fails; the handler is not called. -/
def Framework.refuse (framework : Framework) (request : Request) : Response :=
  ⟨(framework.refusal request).1, .text (framework.refusal request).2⟩

/-! ### Settlement requests -/

structure SettleRequest where
  intentId : String
  payment : Option Value

def SettleRequest.fields : List Field := [.required "intent_id", .optional "payment"]

def SettleRequest.fromJson (value : Value) : Option SettleRequest := do
  let [intentId, payment] ← readRecord SettleRequest.fields value | none
  return {
    intentId := ← intentId.asStr
    payment := match payment with
      | .null => none
      | payment => some payment }

/-! ### Phases of a request -/

/-- What a request does next. -/
inductive Phase where
  | feed
  | announce (request : Request)
  | settle (request : Request)
  | record (receipt : PaymentReceipt) (now : Int64)
  | guard (request : Request)
  | execute (request : Request) (receipt : PaymentReceipt)
  | mint (receipt : PaymentReceipt) (intent : AgentIntent)
  | narrate (sender : String) (kind : MeshEventKind) (body : String) (after : Phase)
  | push (message : MeshMessage) (after : Phase)
  | send (message : MeshMessage) (after : Phase)
  | answer (response : Response)

/-- Where the router sends a request. The guard is layered onto the whole of `/execute`; a `HEAD` of
the feed is a `GET` whose body is dropped. -/
def handoffRouter (request : Request) : Phase :=
  if request.uri = "/mesh/feed" then
    if request.method = "GET" then .feed
    else if request.method = "HEAD" then .answer ⟨200, .empty⟩
    else .answer ⟨405, .empty⟩
  else if request.uri = "/agent/announce" then
    if request.method = "POST" then .announce request else .answer ⟨405, .empty⟩
  else if request.uri = "/x402/settle" then
    if request.method = "POST" then .settle request else .answer ⟨405, .empty⟩
  else if request.uri = "/execute" then .guard request
  else .answer ⟨404, .empty⟩

theorem handoffRouter_announce (request : Request) (post : request.method = "POST")
    (uri : request.uri = "/agent/announce") : handoffRouter request = .announce request := by
  rw [handoffRouter, uri, post]
  rfl

theorem handoffRouter_settle (request : Request) (post : request.method = "POST")
    (uri : request.uri = "/x402/settle") : handoffRouter request = .settle request := by
  rw [handoffRouter, uri, post]
  rfl

theorem handoffRouter_execute (request : Request) (uri : request.uri = "/execute") :
    handoffRouter request = .guard request := by
  rw [handoffRouter, uri]
  rfl

section Handlers

variable (framework : Framework) (primitives : Primitives) (env : Env) (state : HandoffState)

def meshFeed : HandoffState × Phase := (state, .answer ⟨200, .feed state.mesh.feed⟩)

/-- A body that does not extract stands for no body: the mock intent is announced. -/
def agentAnnounce (request : Request) : HandoffState × Phase :=
  let intent := (framework.extractJson AgentIntent.fromJson request).getD
    (.mockEthLimitOrder env.ulid)
  (state, .narrate intent.agentHandle .intent intentAnnouncement (.answer ⟨200, .intent intent⟩))

/-- The backend settles; the receipt is still to be recorded. -/
def x402Settle (request : Request) : HandoffState × Phase :=
  match framework.extractJson SettleRequest.fromJson request with
  | none => (state, .answer (framework.refuse request))
  | some req =>
    match state.gate.backend.settle req.intentId req.payment env.now env.ulid with
    | .ok receipt => (state, .record receipt env.now)
    | .error e =>
      (state, .narrate gateHandle .restriction
        s!"x402 settlement failed for intent {req.intentId}: {e.toString}"
        (.answer ⟨502, .error "settlement_failed" e.toString⟩))

/-- The receipt is recorded under the gate's lock. -/
def recordReceipt (receipt : PaymentReceipt) (now : Int64) : HandoffState × Phase :=
  ({ state with gate := state.gate.record receipt now },
    .narrate gateHandle .payment
      (s!"x402 payment of 0.50 USDC settled for intent {receipt.intentId} — receipt " ++
        s!"{receipt.receiptId}.")
      (.answer ⟨200, .receipt receipt⟩))

/-- The guard on `/execute`: read the headers, redeem the receipt, or refuse and quote terms. -/
def paymentGuard (request : Request) : HandoffState × Phase :=
  let intentId := (request.headerStr? intentHeader).getD ""
  match request.headerStr? receiptHeader with
  | none =>
    (state, .narrate gateHandle .restriction x402RestrictionNotice
      (.answer ⟨402, .paymentRequired (state.gate.termsFor intentId)⟩))
  | some receiptId =>
    let redeemed := state.gate.redeem receiptId intentId
    let state := { state with gate := redeemed.2 }
    match redeemed.1 with
    | .ok receipt => (state, .execute request receipt)
    | .error e =>
      (state, .narrate gateHandle .restriction
        s!"Receipt {receiptId} refused: {e.toString}. {x402RestrictionNotice}"
        (.answer ⟨402, .paymentRequired (state.gate.termsFor intentId)⟩))

/-- The body is extracted and its intent compared with the receipt's. -/
def execute (request : Request) (receipt : PaymentReceipt) : HandoffState × Phase :=
  if request.method ≠ "POST" then (state, .answer ⟨405, .empty⟩)
  else
    match framework.extractJson AgentIntent.fromJson request with
    | none => (state, .answer (framework.refuse request))
    | some intent =>
      if receipt.intentId ≠ intent.intentId then
        (state, .answer ⟨402, .error "payment_required"
          "receipt is bound to a different intent than the request body"⟩)
      else (state, .mint receipt intent)

/-- The mint, and the envelope around its credential. -/
def mintAndPackage (receipt : PaymentReceipt) (intent : AgentIntent) : HandoffState × Phase :=
  match mint primitives intent.payload receipt env.now env.entropy with
  | .error e =>
    (state, .narrate vaultHandle .info s!"Mint refused: {e.toString}"
      (.answer ⟨422, .error "mint_refused" e.toString⟩))
  | .ok credential =>
    let envelope := OneShotEnvelope.package intent.payload credential receipt
    (state, .narrate vaultHandle .credential credentialMintedNotice
      (.narrate relayHandle .settlement
        (s!"Settlement envelope {envelope.idempotencyKey} staged for gasless Stylus broadcast " ++
          s!"(credential expires at {credential.expiresAt}).")
        (.answer ⟨200, .envelope envelope⟩)))

/-- One atomic step of a request. -/
def advance : Phase → HandoffState × Phase
  | .feed => meshFeed state
  | .announce request => agentAnnounce framework env state request
  | .settle request => x402Settle framework env state request
  | .record receipt now => recordReceipt state receipt now
  | .guard request => paymentGuard state request
  | .execute request receipt => execute framework state request receipt
  | .mint receipt intent => mintAndPackage primitives env state receipt intent
  | .narrate sender kind body after =>
    let taken := state.mesh.next sender kind body env.at_
    ({ state with mesh := taken.2 }, .push taken.1 after)
  | .push message after =>
    ({ state with mesh := state.mesh.push message }, .send message after)
  | .send message after => ({ state with mesh := state.mesh.send message }, after)
  | .answer response => (state, .answer response)

/-! ### What each handler can do -/

/-- A settlement that fails is answered, after a line where the backend failed; one that clears goes
on to be recorded. -/
theorem x402Settle_cases (request : Request) :
    (∃ phase response, response.envelope = none ∧
      x402Settle framework env state request = (state, phase) ∧
      (phase = .answer response ∨
        ∃ body, phase = .narrate gateHandle .restriction body (.answer response))) ∨
    ∃ req receipt, framework.extractJson SettleRequest.fromJson request = some req ∧
      state.gate.backend.settle req.intentId req.payment env.now env.ulid = .ok receipt ∧
      x402Settle framework env state request = (state, .record receipt env.now) := by
  unfold x402Settle
  cases extracted : framework.extractJson SettleRequest.fromJson request with
  | none => exact .inl ⟨_, framework.refuse request, rfl, rfl, .inl rfl⟩
  | some req =>
    dsimp only
    cases settled : state.gate.backend.settle req.intentId req.payment env.now env.ulid with
    | error refusal => exact .inl ⟨_, _, rfl, rfl, .inr ⟨_, rfl⟩⟩
    | ok receipt => exact .inr ⟨req, receipt, rfl, settled, rfl⟩

/-- The guard either refuses, with a line and whatever the redemption burned, or passes the receipt
it burned on. -/
theorem paymentGuard_cases (request : Request) :
    (∃ gate body,
      (gate = state.gate ∨ ∃ receiptId, request.headerStr? receiptHeader = some receiptId ∧
        gate = (state.gate.redeem receiptId ((request.headerStr? intentHeader).getD "")).2) ∧
      paymentGuard state request = ({ state with gate := gate },
        .narrate gateHandle .restriction body (.answer
          ⟨402, .paymentRequired (.quote ((request.headerStr? intentHeader).getD ""))⟩))) ∨
    ∃ receiptId receipt, request.headerStr? receiptHeader = some receiptId ∧
      state.gate.receipts.lookup receiptId = some receipt ∧
      receipt.intentId = (request.headerStr? intentHeader).getD "" ∧
      paymentGuard state request = ({ state with gate :=
        (state.gate.redeem receiptId ((request.headerStr? intentHeader).getD "")).2 },
        .execute request receipt) := by
  unfold paymentGuard
  cases presented : request.headerStr? receiptHeader with
  | none => exact .inl ⟨_, _, .inl rfl, rfl⟩
  | some receiptId =>
    dsimp only
    cases answer : (state.gate.redeem receiptId
      ((request.headerStr? intentHeader).getD "")).1 with
    | error refusal => exact .inl ⟨_, _, .inr ⟨receiptId, rfl, rfl⟩, rfl⟩
    | ok receipt =>
      obtain ⟨found, same⟩ := (X402Gate.redeem_fst_eq_ok _ _ _ _).mp answer
      exact .inr ⟨receiptId, receipt, rfl, found, same, rfl⟩

/-- A receipt held for the intent of the header passes the guard. -/
theorem paymentGuard_of_held (request : Request) (receiptId : String) (receipt : PaymentReceipt)
    (presented : request.headerStr? receiptHeader = some receiptId)
    (found : state.gate.receipts.lookup receiptId = some receipt)
    (same : receipt.intentId = (request.headerStr? intentHeader).getD "") :
    paymentGuard state request = ({ state with gate :=
      (state.gate.redeem receiptId ((request.headerStr? intentHeader).getD "")).2 },
      .execute request receipt) := by
  have answer := (X402Gate.redeem_fst_eq_ok _ _ _ _).mpr ⟨found, same⟩
  rw [paymentGuard, presented]
  dsimp only
  rw [answer]

/-- An execution is answered at once, without a line, unless its body is the intent of the
receipt. -/
theorem execute_cases (request : Request) (receipt : PaymentReceipt) :
    (∃ response, response.envelope = none ∧ execute framework state request receipt =
      (state, .answer response)) ∨
    ∃ intent, framework.extractJson AgentIntent.fromJson request = some intent ∧
      receipt.intentId = intent.intentId ∧
      execute framework state request receipt = (state, .mint receipt intent) := by
  unfold execute
  split_ifs with post
  · exact .inl ⟨_, rfl, rfl⟩
  · cases extracted : framework.extractJson AgentIntent.fromJson request with
    | none => exact .inl ⟨framework.refuse request, rfl, rfl⟩
    | some intent =>
      dsimp only
      split_ifs with different
      · exact .inl ⟨_, rfl, rfl⟩
      · exact .inr ⟨intent, rfl, not_not.mp different, rfl⟩

/-- A body that is the intent of the receipt goes on to be minted. -/
theorem execute_of_extracted (request : Request) (receipt : PaymentReceipt) (intent : AgentIntent)
    (post : request.method = "POST")
    (extracted : framework.extractJson AgentIntent.fromJson request = some intent)
    (same : receipt.intentId = intent.intentId) :
    execute framework state request receipt = (state, .mint receipt intent) := by
  rw [execute, if_neg (not_not.mpr post), extracted]
  exact if_neg (not_not.mpr same)

/-- A mint narrates and answers, with the envelope of its credential if there is one. -/
theorem mintAndPackage_cases (receipt : PaymentReceipt) (intent : AgentIntent) :
    (∃ refusal body response, response.envelope = none ∧
      mint primitives intent.payload receipt env.now env.entropy = .error refusal ∧
      mintAndPackage primitives env state receipt intent =
        (state, .narrate vaultHandle .info body (.answer response))) ∨
    ∃ credential body,
      mint primitives intent.payload receipt env.now env.entropy = .ok credential ∧
      mintAndPackage primitives env state receipt intent =
        (state, .narrate vaultHandle .credential credentialMintedNotice
          (.narrate relayHandle .settlement body
            (.answer ⟨200, .envelope (.package intent.payload credential receipt)⟩))) := by
  unfold mintAndPackage
  cases mint primitives intent.payload receipt env.now env.entropy with
  | error refusal => exact .inl ⟨refusal, _, _, rfl, rfl, rfl⟩
  | ok credential => exact .inr ⟨credential, _, rfl, rfl⟩

end Handlers

/-! ### What a backend gives -/

/-- Whatever the backend, a receipt it gives is a cleared one, under the id it was handed. -/
theorem settle_eq_ok (backend : SettlementBackend) (intentId : String) (payment : Option Value)
    (now : Int64) (ulid : Ulid) (receipt : PaymentReceipt)
    (settled : backend.settle intentId payment now ulid = .ok receipt) :
    receipt = .cleared ulid intentId now := by
  cases backend with
  | mock => exact (Except.ok.inj settled).symm
  | facilitator client =>
    cases payment with
    | none => cases settled
    | some payment =>
      simp only [SettlementBackend.settle, FacilitatorClient.settleIntent, Outcome.bind_eq_ok,
        Outcome.guard_eq_ok] at settled
      obtain ⟨-, -, -, -, -, -, same⟩ := settled
      exact (Except.ok.inj same).symm

end Hammurabi
