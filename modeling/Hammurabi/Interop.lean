/-
This file is the vocabulary of the storefront: what an invocation and a result are as
documents, and when a result has the storefront ask for a payment.

A result carries the router's status, and the storefront asks for a payment exactly if
that is the one for it. Of the four capabilities only the minting can be answered so.
It is when no receipt that is held is presented for the intent of the header; and once
more, after the receipt is burned, when the body turns out to be for another intent.
Every answer is a document that is read back as it was written, so the storefront on
the other side of the text decides the same.
-/

import Hammurabi.BridgeErrors
import Hammurabi.Manifest

namespace Hammurabi

open Json Outcome Unicode Value

/-! ### Documents of the storefront -/

namespace OkxInvocation

def fields : List Field := [.required "capability", .required "request_id", .required "params"]

def toJson (inv : OkxInvocation) : Value := .object [
  ("capability", .string inv.capability),
  ("request_id", .string inv.requestId),
  ("params", inv.params)]

def fromJson (value : Value) : Option OkxInvocation := do
  let [capability, requestId, params] ← readRecord fields value | none
  return ⟨← capability.asStr, ← requestId.asStr, params⟩

/-- Parse an invocation from marketplace JSON. The text of the parser's error is a parameter. -/
def fromText (framework : Framework) (refusal : List UInt8 → String) (text : List UInt8) :
    Except AspManifest.OkaError OkxInvocation :=
  match (framework.fromSlice text).bind fromJson with
  | none => .error (.schema (refusal text))
  | some inv => .ok inv

theorem fromJson_toJson (inv : OkxInvocation) : fromJson inv.toJson = some inv := rfl

end OkxInvocation

/-- The largest status, and anything else is not one. -/
def readUInt16 (value : Value) : Option Nat :=
  (readUInt64 value).bind fun number =>
    if number.toNat < 2 ^ 16 then some number.toNat else none

namespace OkxResult

def fields : List Field := [.required "request_id", .required "status", .required "body"]

def toJson (result : OkxResult) : Value := .object [
  ("request_id", .string result.requestId),
  ("status", .ofUInt64 (.ofNat result.status)),
  ("body", result.body)]

def fromJson (value : Value) : Option OkxResult := do
  let [requestId, status, body] ← readRecord fields value | none
  return ⟨← requestId.asStr, ← readUInt16 status, body⟩

/-- The text of a result, as bytes. -/
def toText (result : OkxResult) : List UInt8 := utf8 result.toJson.text

/-- Whether the storefront should surface a payment prompt. -/
def needsPayment (result : OkxResult) : Bool := result.status == 402

theorem fromJson_toJson (result : OkxResult) (small : result.status < 2 ^ 16) :
    fromJson result.toJson = some result := by
  have status : readUInt16 (.ofUInt64 (.ofNat result.status)) = some result.status := by
    rw [readUInt16, readUInt64_ofUInt64, Option.bind_some, UInt64.toNat_ofNat',
      Nat.mod_eq_of_lt (by omega), if_pos small]
  have held : readRecord fields result.toJson =
      some [.string result.requestId, .ofUInt64 (.ofNat result.status), result.body] := rfl
  rw [fromJson, held]
  simp only [Option.bind_eq_bind, Option.bind_some, asStr_string, status]
  rfl

end OkxResult

/-! ### What an invocation is answered with -/

theorem portable_feed (lines : List MeshMessage) :
    Portable 127 (.array (lines.map MeshMessage.toJson)) := by
  obtain ⟨unique, integer, -⟩ := feed_document lines
  refine ⟨unique, integer, ?_⟩
  have flat : ∀ kind : MeshEventKind, kind.toJson.depth = 0 := by
    intro kind
    cases kind <;> rfl
  have shallow : Value.depthItems (lines.map MeshMessage.toJson) ≤ 1 := by
    induction lines with
    | nil => exact Nat.zero_le _
    | cons line lines inductionHypothesis =>
      obtain ⟨unique, integer, -⟩ := feed_document lines
      rw [List.map_cons, Value.depthItems, Nat.max_le]
      refine ⟨?_, inductionHypothesis unique integer⟩
      simp [MeshMessage.toJson, Value.depth, Value.depthMembers, Value.ofUInt64, flat]
  rw [Value.depth]
  omega

theorem portable_payload (intent : AgentIntent) : Portable 127 intent.payload where
  unique := intent.payload_uniqueKeys
  integer := intent.payload_integerOnly
  shallow := by
    simp [AgentIntent.payload, LimitOrder.toJson, OrderSide.toJson, Value.ofUInt64, Value.depth,
      Value.depthMembers]

theorem portable_receipt (receipt : PaymentReceipt) : Portable 127 receipt.toJson where
  unique := by simp [PaymentReceipt.toJson, Value.ofUInt64, uniqueKeys_ofInt64]
  integer := by simp [PaymentReceipt.toJson, Value.ofUInt64, integerOnly_ofInt64]
  shallow := by
    simp [PaymentReceipt.toJson, Value.ofUInt64, depth_ofInt64, Value.depth, Value.depthMembers]

theorem portable_error (name detail : String) :
    Portable 127 (.object [("error", .string name), ("detail", .string detail)]) where
  unique := by simp
  integer := by simp
  shallow := by simp [Value.depth, Value.depthMembers]

theorem portable_terms (terms : PaymentTerms) : Portable 127 (.object [
    ("error", .string "payment_required"), ("accepts", .array [terms.toJson])]) where
  unique := by simp [PaymentTerms.toJson, Value.ofUInt64]
  integer := by simp [PaymentTerms.toJson, Value.ofUInt64]
  shallow := by
    simp [PaymentTerms.toJson, Value.ofUInt64, Value.depth, Value.depthMembers, Value.depthItems]

theorem portable_envelope (intent : AgentIntent) (credential : EphemeralCredential)
    (receipt : PaymentReceipt) :
    Portable 127 (OneShotEnvelope.package intent.payload credential receipt).toBroadcastJson where
  unique := uniqueKeys_broadcast intent credential receipt
  integer := integerOnly_broadcast intent credential receipt
  shallow := by
    rw [depth_broadcast]
    decide

section Answers

variable (framework : Framework) (primitives : Primitives) (envs : Nat → Env)
  (state : HandoffState) (inv : OkxInvocation)

/-- How the router answers an invocation that is no minting: with a refused body, or with the answer
of a handler that does not ask for payment. -/
inductive Answered (request : Request) : Response → Prop
  | refused : Answered request (framework.refuse request)
  | feed (lines : List MeshMessage) : Answered request ⟨200, .feed lines⟩
  | intent (intent : AgentIntent) : Answered request ⟨200, .intent intent⟩
  | receipt (receipt : PaymentReceipt) : Answered request ⟨200, .receipt receipt⟩
  | unsettled (detail : String) : Answered request ⟨502, .error "settlement_failed" detail⟩

/-- A settlement is answered by its receipt, its failure, or the refusal of its body. -/
theorem answered_settle (request : Request) (response : Response)
    (answered : (drive framework primitives envs maxSteps 0 state (.settle request)).phase =
      .answer response) : Answered framework request response := by
  rw [maxSteps, drive_succ framework primitives envs 15 0 state (.settle request)
    (Nat.zero_lt_succ 4), advance, x402Settle] at answered
  cases extracted : framework.extractJson SettleRequest.fromJson request with
  | none =>
    rw [extracted] at answered
    dsimp only at answered
    rw [drive_answer] at answered
    cases answered
    exact .refused
  | some req =>
    rw [extracted] at answered
    dsimp only at answered
    cases settled : state.gate.backend.settle req.intentId req.payment (envs 0).now
      (envs 0).ulid with
    | ok receipt =>
      rw [settled] at answered
      dsimp only at answered
      rw [drive_succ framework primitives envs 14 1 state (.record receipt (envs 0).now)
        (Nat.zero_lt_succ 3), advance, recordReceipt] at answered
      dsimp only at answered
      rw [drive_reply framework primitives envs 14 2 _ _ _ (Nat.le_of_ble_eq_true rfl)
        rfl] at answered
      cases answered
      exact .receipt receipt
    | error refusal =>
      rw [settled] at answered
      dsimp only at answered
      rw [drive_reply framework primitives envs 15 1 _ _ _ (Nat.le_of_ble_eq_true rfl)
        rfl] at answered
      cases answered
      exact .unsettled _

/-- Whatever is not a minting is answered by a handler that does not ask for payment. -/
theorem answered_other (other : inv.capability ≠ "credential_minting") (call : RouterCall)
    (request : Request) (known : inv.call = some call) (built : call.request? = some request)
    (response : Response)
    (answered : (handle framework primitives envs state request).phase = .answer response) :
    Answered framework request response := by
  obtain ⟨method, uri⟩ := sent_of_built call request built
  rw [handle, handoffRouter, method, uri] at answered
  unfold OkxInvocation.call at known
  split_ifs at known
  · cases known
    change (drive framework primitives envs maxSteps 0 state .feed).phase = _ at answered
    rw [maxSteps, drive_succ framework primitives envs 15 0 state .feed Nat.one_pos, advance,
      meshFeed] at answered
    dsimp only at answered
    rw [drive_answer] at answered
    cases answered
    exact .feed _
  · cases known
    change (drive framework primitives envs maxSteps 0 state (.announce request)).phase = _
      at answered
    rw [maxSteps, drive_succ framework primitives envs 15 0 state (.announce request)
      (Nat.zero_lt_succ 3), advance, agentAnnounce] at answered
    dsimp only at answered
    rw [drive_reply framework primitives envs 15 1 _ _ _ (Nat.le_of_ble_eq_true rfl)
      rfl] at answered
    cases answered
    exact .intent _
  · cases known
    exact answered_settle framework primitives envs state request response answered

/-! ### Reading back -/

/-- A response that carries a document is read as its status and the document. -/
theorem read_of_portable (readsBack : framework.ReadsBack) (response : Response)
    (document : Value) (carries : response.body.document = some document)
    (portable : Portable 127 document) (status : Nat) (body : Value)
    (read : readResponse framework response = .ok (status, body)) :
    status = response.status ∧ body = document := by
  rw [readResponse_document framework readsBack response document carries portable.unique
    portable.integer (Nat.lt_trans portable.shallow (by decide))] at read
  split_ifs at read
  exact Prod.mk.inj (Except.ok.inj read).symm

/-- An invocation with a document for its params arrives as it was sent. -/
theorem fromText_toJson (readsBack : framework.ReadsBack) (portable : Portable 127 inv.params)
    (refusal : List UInt8 → String) :
    OkxInvocation.fromText framework refusal (utf8 inv.toJson.text) = .ok inv := by
  have unique : inv.toJson.UniqueKeys := by
    simp [OkxInvocation.toJson, portable.unique]
  have integer : inv.toJson.IntegerOnly := by
    simp [OkxInvocation.toJson, portable.integer]
  have shallow : inv.toJson.depth < 128 := by
    have inside := portable.shallow
    simp [OkxInvocation.toJson, Value.depth, Value.depthMembers]
    omega
  rw [OkxInvocation.fromText, readsBack.document inv.toJson unique integer shallow,
    Option.bind_some, OkxInvocation.fromJson_toJson]

/-- A result that carries a document is read back from its text. -/
theorem fromSlice_toText (readsBack : framework.ReadsBack) (result : OkxResult)
    (portable : Portable 127 result.body) (small : result.status < 2 ^ 16) :
    (framework.fromSlice result.toText).bind OkxResult.fromJson = some result := by
  have unique : result.toJson.UniqueKeys := by
    simp [OkxResult.toJson, Value.ofUInt64, portable.unique]
  have integer : result.toJson.IntegerOnly := by
    simp [OkxResult.toJson, Value.ofUInt64, portable.integer]
  have shallow : result.toJson.depth < 128 := by
    have inside := portable.shallow
    simp [OkxResult.toJson, Value.ofUInt64, Value.depth, Value.depthMembers]
    omega
  rw [OkxResult.toText, readsBack.document result.toJson unique integer shallow, Option.bind_some,
    OkxResult.fromJson_toJson result small]

theorem needsPayment_iff (result : OkxResult) :
    result.needsPayment = true ↔ result.status = 402 := by
  rw [OkxResult.needsPayment, beq_iff_eq]

/-- A result comes of a response that was read. -/
theorem dispatched_cases (result : OkxResult)
    (dispatched : (dispatchOkx framework primitives envs state inv).2 = .ok result) :
    ∃ call request response, inv.call = some call ∧ call.request? = some request ∧
      (handle framework primitives envs state request).phase = .answer response ∧
      result.requestId = inv.requestId ∧
      readResponse framework response = .ok (result.status, result.body) := by
  cases known : inv.call with
  | none =>
    rw [dispatchOkx, known] at dispatched
    cases dispatched
  | some call =>
    cases built : call.request? with
    | none =>
      rw [dispatchOkx_of_unbuilt framework primitives envs state inv call known built] at dispatched
      cases dispatched
    | some request =>
      obtain ⟨response, answered⟩ := handle_answers framework primitives envs state request
      rw [dispatchOkx_of_answer framework primitives envs state inv call request response known
        built answered] at dispatched
      cases read : readResponse framework response with
      | error refusal =>
        rw [read] at dispatched
        cases dispatched
      | ok answer =>
        rw [read] at dispatched
        cases dispatched
        exact ⟨call, request, response, rfl, built, answered, rfl, read⟩

/-! ### Asking for a payment -/

/-- A minting asks for a payment: no held receipt is presented for it, or its body is for another
intent than the receipt. -/
def OkxInvocation.Asks : Prop :=
  inv.capability = "credential_minting" ∧
    ((¬ ∃ receipt, inv.Redeems state receipt) ∨
      ∃ receipt intent, inv.Redeems state receipt ∧ inv.Sends framework intent ∧
        intent.intentId ≠ receipt.intentId)

/-- A minting whose body is the intent of the receipt it presents does not. -/
theorem not_asks (minting : inv.capability = "credential_minting") (request : Request)
    (built : RouterCall.request? ⟨"POST", "/execute",
      executionHeaders (textUnder (splitMintingParams inv.params).1 "intent_id")
        (splitMintingParams inv.params).2, some (splitMintingParams inv.params).1⟩ = some request)
    (presents : ∀ receipt, Presents state request receipt ↔ inv.Redeems state receipt)
    (receipt : PaymentReceipt) (presented : Presents state request receipt)
    (intent : AgentIntent)
    (extracted : framework.extractJson AgentIntent.fromJson request = some intent)
    (same : receipt.intentId = intent.intentId) : ¬ inv.Asks framework state := by
  rintro ⟨-, none | ⟨other, body, redeems, ⟨call, sent, known, built', read⟩, different⟩⟩
  · exact none ⟨receipt, (presents receipt).mp presented⟩
  · cases (call_minting inv minting).symm.trans known
    cases built.symm.trans built'
    cases extracted.symm.trans read
    cases presents_unique state request receipt other presented ((presents other).mpr redeems)
    exact different same.symm

/-- What the storefront makes of the result of an invocation. -/
structure StorefrontSees (result : OkxResult) : Prop where
  arrives : Portable 127 inv.params → ∀ refusal,
    OkxInvocation.fromText framework refusal (utf8 inv.toJson.text) = .ok inv
  correlated : result.requestId = inv.requestId
  readsBack : (framework.fromSlice result.toText).bind OkxResult.fromJson = some result
  prompts : result.needsPayment = true ↔ inv.Asks framework state
  named : result.needsPayment = true →
    result.body.get "error" = some (.string "payment_required")
  /-- There are terms to pay by only where nothing was presented. -/
  quoted : result.needsPayment = true →
    (result.body.get "accepts" =
        some (.array [(PaymentTerms.quote inv.headerIntent).toJson]) ↔
      ¬ ∃ receipt, inv.Redeems state receipt)

/-- What the storefront sees is told by the response whose document the result carries. -/
theorem sees_portable (readsBack : framework.ReadsBack) (result : OkxResult) (response : Response)
    (correlated : result.requestId = inv.requestId)
    (read : readResponse framework response = .ok (result.status, result.body))
    (status : Nat) (document : Value) (stands : response.status = status)
    (carries : response.body.document = some document) (portable : Portable 127 document)
    (small : status < 2 ^ 16) (prompts : status = 402 ↔ inv.Asks framework state)
    (named : status = 402 → document.get "error" = some (.string "payment_required"))
    (quoted : status = 402 →
      (document.get "accepts" =
          some (.array [(PaymentTerms.quote inv.headerIntent).toJson]) ↔
        ¬ ∃ receipt, inv.Redeems state receipt)) :
    StorefrontSees framework state inv result := by
  obtain ⟨same, body⟩ :=
    read_of_portable framework readsBack response document carries portable _ _ read
  rw [stands] at same
  have asked : result.needsPayment = true ↔ status = 402 := by
    rw [needsPayment_iff, same]
  exact {
    arrives := fromText_toJson framework inv readsBack
    correlated := correlated
    readsBack := fromSlice_toText framework readsBack result (body ▸ portable) (same ▸ small)
    prompts := asked.trans prompts
    named := fun prompted => by rw [body, named (asked.mp prompted)]
    quoted := fun prompted => by rw [body, quoted (asked.mp prompted)] }

/-- A response that does not ask for a payment, to an invocation that does not. -/
theorem sees_unasked (readsBack : framework.ReadsBack) (result : OkxResult) (response : Response)
    (correlated : result.requestId = inv.requestId)
    (read : readResponse framework response = .ok (result.status, result.body))
    (status : Nat) (document : Value) (stands : response.status = status)
    (carries : response.body.document = some document) (portable : Portable 127 document)
    (small : status < 2 ^ 16) (unpaid : status ≠ 402) (unasked : ¬ inv.Asks framework state) :
    StorefrontSees framework state inv result :=
  sees_portable framework state inv readsBack result response correlated read status document
    stands carries portable small (iff_of_false unpaid unasked) (fun paid => absurd paid unpaid)
    fun paid => absurd paid unpaid

/-- The response to a minting asks for a payment when the receipt is refused, or the body is for
another intent. -/
theorem sees_minting (readsBack : framework.ReadsBack) (plain : framework.PlainRefusals)
    (minting : inv.capability = "credential_minting") (call : RouterCall) (request : Request)
    (response : Response) (known : inv.call = some call) (built : call.request? = some request)
    (answered : (handle framework primitives envs state request).phase = .answer response)
    (result : OkxResult) (correlated : result.requestId = inv.requestId)
    (read : readResponse framework response = .ok (result.status, result.body)) :
    StorefrontSees framework state inv result := by
  obtain ⟨named, presents⟩ := headers_minting state inv minting call request known built
  rw [call_minting inv minting] at known
  cases known
  obtain ⟨post, execution⟩ := sent_of_built _ request built
  obtain ⟨ending, kinds, ends, reached, -⟩ :=
    handle_ends framework primitives envs state request post execution
  cases reached.symm.trans answered
  cases ends with
  | refused unpresented =>
    have none : ¬ ∃ receipt, inv.Redeems state receipt := by
      rintro ⟨receipt, redeems⟩
      exact unpresented ⟨receipt, (presents receipt).mpr redeems⟩
    refine sees_portable framework state inv readsBack result _ correlated read 402 _ rfl rfl
      (portable_terms _) (by decide) (iff_of_true rfl ⟨minting, .inl none⟩) (fun _ => rfl)
      fun _ => ?_
    rw [← named]
    exact iff_of_true rfl none
  | unread receipt presented unread =>
    exact absurd ⟨_, read⟩ (not_reads_refuse framework plain request)
  | mismatched receipt presented intent extracted different =>
    have redeems := (presents receipt).mp presented
    have asks : inv.Asks framework state := ⟨minting, .inr ⟨receipt, intent, redeems,
      ⟨_, request, call_minting inv minting, built, extracted⟩, different.symm⟩⟩
    refine sees_portable framework state inv readsBack result _ correlated read 402 _ rfl rfl
      (portable_error _ _) (by decide) (iff_of_true rfl asks) (fun _ => rfl) fun _ => ?_
    refine iff_of_false ?_ (not_not.mpr ⟨receipt, redeems⟩)
    rintro ⟨⟩
  | unminted receipt presented intent extracted same refusal =>
    exact sees_unasked framework state inv readsBack result _ correlated read 422 _ rfl rfl
      (portable_error _ _) (by decide) (by decide) (not_asks framework state inv minting request
        built presents receipt presented intent extracted same)
  | released receipt presented intent extracted same credential =>
    exact sees_unasked framework state inv readsBack result _ correlated read 200 _ rfl rfl
      (portable_envelope intent credential receipt) (by decide) (by decide) (not_asks framework
        state inv minting request built presents receipt presented intent extracted same)

variable (readsBack : framework.ReadsBack) (plain : framework.PlainRefusals)

include readsBack plain

/-- The storefront is asked for a payment exactly by a minting for which no held receipt is
presented, or whose body is for another intent than the receipt; there are terms in the first case
alone; and on either side of the text the invocation and the result are the same. -/
theorem storefront_prompted (result : OkxResult)
    (dispatched : (dispatchOkx framework primitives envs state inv).2 = .ok result) :
    StorefrontSees framework state inv result := by
  obtain ⟨call, request, response, known, built, answered, correlated, read⟩ :=
    dispatched_cases framework primitives envs state inv result dispatched
  by_cases minting : inv.capability = "credential_minting"
  · exact sees_minting framework primitives envs state inv readsBack plain minting call request
      response known built answered result correlated read
  · have unasked : ¬ inv.Asks framework state := fun asks => minting asks.1
    have sees := sees_unasked framework state inv readsBack result response correlated read
    cases answered_other framework primitives envs state inv minting call request known built
      response answered with
    | refused => exact absurd ⟨_, read⟩ (not_reads_refuse framework plain request)
    | feed lines =>
      exact sees 200 _ rfl rfl (portable_feed lines) (by decide) (by decide) unasked
    | intent intent =>
      exact sees 200 _ rfl rfl (portable_payload intent) (by decide) (by decide) unasked
    | receipt receipt =>
      exact sees 200 _ rfl rfl (portable_receipt receipt) (by decide) (by decide) unasked
    | unsettled detail =>
      exact sees 502 _ rfl rfl (portable_error _ _) (by decide) (by decide) unasked

end Answers

/-- At the start nothing is held, and a minting asks for a payment. -/
theorem storefront_prompted_unpaid :
    let inv : OkxInvocation := ⟨"credential_minting", "okx-7", .null⟩
    ∃ result, (dispatchOkx plainFramework (markingPrimitives []) (fun _ => plainEnv) .new inv).2 =
        .ok result ∧ StorefrontSees plainFramework .new inv result ∧
      result.needsPayment = true := by
  intro inv
  have known : inv.call = some ⟨"POST", "/execute", executionHeaders "" none, some .null⟩ := rfl
  obtain ⟨request, built⟩ := exists_buildRequest "POST" "/execute" (executionHeaders "" none)
    .null fun header member => by
      rw [List.mem_singleton.mp member]
      exact exists_ofString? "" rfl
  obtain ⟨post, execution, -⟩ := buildRequest_eq_some _ _ _ _ request built
  obtain ⟨named, presents⟩ := headers_minting .new inv rfl _ request known built
  have none : ¬ ∃ receipt, Presents .new request receipt := by
    rintro ⟨receipt, presented⟩
    obtain ⟨receiptId, absent, -⟩ := (presents receipt).mp presented
    cases absent
  obtain ⟨response, kinds, ends, answered, -⟩ := handle_ends plainFramework (markingPrimitives [])
    (fun _ => plainEnv) .new request post execution
  cases ends with
  | refused _ =>
    have portable := portable_terms (.quote "")
    have read := readResponse_document plainFramework plainFramework_readsBack
      ⟨402, .paymentRequired (.quote "")⟩ _ rfl portable.unique portable.integer
      (Nat.lt_trans portable.shallow (by decide))
    rw [if_pos (by decide +kernel)] at read
    have dispatched := dispatchOkx_of_answer plainFramework (markingPrimitives [])
      (fun _ => plainEnv) .new inv _ request _ known built answered
    rw [show (request.headerStr? intentHeader).getD "" = "" from named, read] at dispatched
    have sees := storefront_prompted plainFramework (markingPrimitives []) (fun _ => plainEnv) .new
      inv plainFramework_readsBack plainFramework_plainRefusals _ dispatched
    exact ⟨_, dispatched, sees, rfl⟩
  | unread receipt presented => exact absurd ⟨receipt, presented⟩ none
  | mismatched receipt presented => exact absurd ⟨receipt, presented⟩ none
  | unminted receipt presented => exact absurd ⟨receipt, presented⟩ none
  | released receipt presented => exact absurd ⟨receipt, presented⟩ none

end Hammurabi
