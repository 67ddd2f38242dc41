/-
This file is about the errors of the OKX bridge.

The bridge decides whether to return an error after the router has run, from the
bytes of the response. A request that cannot be built never reaches the router. Of
the others, those answered with a document within the limit give a result, and the
rest an error: a body the extractor refuses is answered in plain text, also behind a
guard that has burned a receipt, and a response may be too long to be read. So an
error is an error of the edge exactly when neither happens, and which of the two
happens is settled by the invocation, the state and the extraction of the body.
-/

import Hammurabi.Narration
import Hammurabi.SelfAttack
import Hammurabi.Sizes

namespace Hammurabi

open Json Runs Unicode

/-! ### Responses that read back -/

/-- What is relied on of the extractor: the texts it refuses a body with are not JSON. -/
structure Framework.PlainRefusals (framework : Framework) : Prop where
  nonempty : ∀ request, (framework.refusal request).2 ≠ ""
  plain : ∀ request, framework.fromSlice (utf8 (framework.refusal request).2.toList) = none

/-- A response reads back. -/
def Reads (framework : Framework) (response : Response) : Prop :=
  ∃ read, readResponse framework response = .ok read

/-- A refused body does not read back. -/
theorem not_reads_refuse (framework : Framework) (plain : framework.PlainRefusals)
    (request : Request) : ¬ Reads framework (framework.refuse request) := by
  rintro ⟨answer, read⟩
  have bytes : (framework.refuse request).body.bytes =
      utf8 (framework.refusal request).2.toList := rfl
  have some : (utf8 (framework.refusal request).2.toList).isEmpty = false := by
    obtain ⟨c, rest, text⟩ := List.exists_cons_of_ne_nil fun none =>
      plain.nonempty request (String.toList_eq_nil_iff.mp none)
    rw [text, utf8_cons, List.isEmpty_eq_false_iff]
    exact List.append_ne_nil_of_left_ne_nil (utf8EncodeChar_ne_nil c) _
  rw [readResponse, bytes, some, plain.plain request] at read
  split_ifs at read with exceeds empty
  exact empty.elim

/-- The document of a feed has unique keys and no floats, and is shallow. -/
theorem feed_document (lines : List MeshMessage) :
    (Value.array (lines.map MeshMessage.toJson)).UniqueKeys ∧
      (Value.array (lines.map MeshMessage.toJson)).IntegerOnly ∧
      (Value.array (lines.map MeshMessage.toJson)).depth < 128 := by
  have kinds : ∀ kind : MeshEventKind, kind.toJson.UniqueKeys ∧ kind.toJson.IntegerOnly ∧
      kind.toJson.depth = 0 := by
    intro kind
    cases kind <;> exact ⟨by simp [MeshEventKind.toJson], by simp [MeshEventKind.toJson], rfl⟩
  have shallow : Value.depthItems (lines.map MeshMessage.toJson) ≤ 1 := by
    induction lines with
    | nil => exact Nat.zero_le _
    | cons line lines inductionHypothesis =>
      rw [List.map_cons, Value.depthItems, Nat.max_le]
      refine ⟨?_, inductionHypothesis⟩
      simp [MeshMessage.toJson, Value.depth, Value.depthMembers, Value.ofUInt64, kinds]
  refine ⟨?_, ?_, ?_⟩
  · simp [MeshMessage.toJson, Value.ofUInt64, kinds]
  · simp [MeshMessage.toJson, Value.ofUInt64, kinds]
  · rw [Value.depth]
    omega

section

variable (framework : Framework) (readsBack : framework.ReadsBack)

include readsBack

/-- A response that carries a document reads back when it is within the limit. -/
theorem reads_iff_short (response : Response) (document : Value)
    (carries : response.body.document = some document) (unique : document.UniqueKeys)
    (integer : document.IntegerOnly) (shallow : document.depth < 128) :
    Reads framework response ↔ document.byteLength ≤ maxResponseBytes := by
  rw [Reads, readResponse_document framework readsBack response document carries unique integer
    shallow]
  split
  · exact iff_of_true ⟨_, rfl⟩ (by assumption)
  · refine iff_of_false ?_ (by assumption)
    rintro ⟨answer, read⟩
    cases read

theorem reads_feed (status : Nat) (lines : List MeshMessage) :
    Reads framework ⟨status, .feed lines⟩ ↔ feedLength lines ≤ maxResponseBytes := by
  obtain ⟨unique, integer, shallow⟩ := feed_document lines
  rw [← byteLength_feed]
  exact reads_iff_short framework readsBack _ _ rfl unique integer shallow

theorem reads_intent (status : Nat) (intent : AgentIntent) :
    Reads framework ⟨status, .intent intent⟩ ↔ intent.payload.byteLength ≤ maxResponseBytes :=
  reads_iff_short framework readsBack _ _ rfl intent.payload_uniqueKeys
    intent.payload_integerOnly intent.payload_depth

theorem reads_receipt (status : Nat) (receipt : PaymentReceipt) :
    Reads framework ⟨status, .receipt receipt⟩ ↔
      receipt.toJson.byteLength ≤ maxResponseBytes := by
  refine reads_iff_short framework readsBack _ _ rfl ?_ ?_ ?_
  · simp [PaymentReceipt.toJson, Value.ofUInt64, uniqueKeys_ofInt64]
  · simp [PaymentReceipt.toJson, Value.ofUInt64, integerOnly_ofInt64]
  · simp [PaymentReceipt.toJson, Value.ofUInt64, depth_ofInt64, Value.depth, Value.depthMembers]

theorem reads_error (status : Nat) (name detail : String) :
    Reads framework ⟨status, .error name detail⟩ ↔
      (Value.object [("error", .string name), ("detail", .string detail)]).byteLength ≤
        maxResponseBytes :=
  reads_iff_short framework readsBack _ _ rfl (by simp) (by simp)
    (by simp [Value.depth, Value.depthMembers])

theorem reads_terms (status : Nat) (intentId : String) :
    Reads framework ⟨status, .paymentRequired (.quote intentId)⟩ ↔
      quoteLength intentId ≤ maxResponseBytes := by
  rw [← byteLength_quote]
  refine reads_iff_short framework readsBack _ _ rfl ?_ ?_ ?_
  · simp [PaymentTerms.toJson, Value.ofUInt64]
  · simp [PaymentTerms.toJson, Value.ofUInt64]
  · simp [PaymentTerms.toJson, Value.ofUInt64, Value.depth, Value.depthMembers, Value.depthItems]

theorem reads_envelope (status : Nat) (intent : AgentIntent) (credential : EphemeralCredential)
    (receipt : PaymentReceipt) :
    Reads framework ⟨status, .envelope (.package intent.payload credential receipt)⟩ ↔
      (OneShotEnvelope.package intent.payload credential receipt).toBroadcastJson.byteLength ≤
        maxResponseBytes :=
  reads_iff_short framework readsBack _ _ rfl (uniqueKeys_broadcast intent credential receipt)
    (integerOnly_broadcast intent credential receipt) (by
      rw [depth_broadcast]
      decide)

end

/-! ### What an invocation asks of the router -/

section Invocations

variable (framework : Framework) (envs : Nat → Env) (state : HandoffState) (inv : OkxInvocation)

/-- A minting is handed to the guarded route, with the intent's id and the receipt's in the
headers. -/
theorem call_minting (minting : inv.capability = "credential_minting") :
    inv.call = some ⟨"POST", "/execute",
      executionHeaders (textUnder (splitMintingParams inv.params).1 "intent_id")
        (splitMintingParams inv.params).2, some (splitMintingParams inv.params).1⟩ := by
  rw [OkxInvocation.call, minting]
  rfl

theorem sent_of_built (call : RouterCall) (request : Request)
    (built : call.request? = some request) :
    request.method = call.method ∧ request.uri = call.uri := by
  obtain ⟨method, uri, headers, body⟩ := call
  cases body with
  | some json =>
    obtain ⟨posted, there, -⟩ := buildRequest_eq_some method uri headers json request built
    exact ⟨posted, there⟩
  | none =>
    simp only [RouterCall.request?, buildRequest, Option.bind_eq_bind, Option.pure_def,
      Option.bind_eq_some_iff, Option.some.injEq] at built
    obtain ⟨values, -, rfl⟩ := built
    exact ⟨rfl, rfl⟩

/-- The intent id of a minting as the guard reads it from the header. -/
def OkxInvocation.headerIntent : String :=
  let id := textUnder (splitMintingParams inv.params).1 "intent_id"
  if (utf8 id.toList).all isVisibleByte then id else ""

/-- The receipt id of a minting is that of a receipt held for the intent of the header. -/
def OkxInvocation.Redeems (receipt : PaymentReceipt) : Prop :=
  ∃ receiptId, (splitMintingParams inv.params).2 = some receiptId ∧ Visible receiptId ∧
    state.gate.receipts.lookup receiptId = some receipt ∧ receipt.intentId = inv.headerIntent

/-- The body of an invocation's request extracts as an intent. -/
def OkxInvocation.Sends (intent : AgentIntent) : Prop :=
  ∃ call request, inv.call = some call ∧ call.request? = some request ∧
    framework.extractJson AgentIntent.fromJson request = some intent

/-- What the guard reads of a minting. -/
theorem headers_minting (minting : inv.capability = "credential_minting") (call : RouterCall)
    (request : Request) (known : inv.call = some call) (built : call.request? = some request) :
    (request.headerStr? intentHeader).getD "" = inv.headerIntent ∧
      ∀ receipt, Presents state request receipt ↔ inv.Redeems state receipt := by
  rw [call_minting inv minting] at known
  cases known
  have header := headerStr?_buildRequest _ _ _ _ request built intentHeader (by decide)
  have presented := headerStr?_buildRequest _ _ _ _ request built receiptHeader (by decide)
  have named : (request.headerStr? intentHeader).getD "" = inv.headerIntent := by
    rw [header, executionHeaders, List.lookup_cons_self, Option.bind_some,
      HeaderValue.toStr?_ofString?, OkxInvocation.headerIntent]
    split <;> rfl
  have listed : ∀ id : String, ∀ presented : Option String,
      (executionHeaders id presented).lookup receiptHeader = presented := by
    intro id presented
    cases presented <;> rfl
  refine ⟨named, fun receipt => ?_⟩
  rw [Presents, OkxInvocation.Redeems, named, presented, listed]
  cases (splitMintingParams inv.params).2 with
  | none => simp
  | some receiptId =>
    rw [Option.bind_some, HeaderValue.toStr?_ofString?]
    simp only [Visible, Option.some.injEq, exists_eq_left']
    split_ifs with visible
    · simp only [Option.some.injEq, exists_eq_left', visible, true_and]
    · simp only [visible, reduceCtorEq, false_and, exists_const]

/-- The answer to an invocation that reaches the router is a document within the limit: a feed that
is short; an announced intent that is; a settlement of a short id; or a minting that the guard
refuses for a short id, or whose body extracts and, if it is the intent of the receipt, leaves room
for the rest of its envelope. -/
def OkxInvocation.AnswersShortly : Prop :=
  if inv.capability = "audit_feed" then feedLength state.mesh.feed ≤ maxResponseBytes
  else if inv.capability = "intent_announce" then
    ∀ intent, inv.Sends framework intent → intent.payload.byteLength ≤ maxResponseBytes
  else if inv.capability = "payment_settlement" then
    keyLength (textUnder inv.params "intent_id") + 14 ≤ maxRequestBodyBytes ∧
      (state.gate.backend = .mock →
        receiptLength (textUnder inv.params "intent_id") (envs 0).now ≤ maxResponseBytes)
  else
    (∀ receipt, inv.Redeems state receipt →
      ∃ intent, inv.Sends framework intent ∧
        (receipt.intentId = intent.intentId →
          envelopeLength intent.payload receipt (envs 2).now ≤ maxResponseBytes)) ∧
    ((¬ ∃ receipt, inv.Redeems state receipt) →
      quoteLength inv.headerIntent ≤ maxResponseBytes)

end Invocations

/-! ### Which invocations are answered with a document within the limit -/

section Answers

variable (framework : Framework) (primitives : Primitives) (envs : Nat → Env)
  (state : HandoffState) (readsBack : framework.ReadsBack) (plain : framework.PlainRefusals)

include readsBack

theorem reads_of_feed (response : Response)
    (answered : (drive framework primitives envs maxSteps 0 state .feed).phase =
      .answer response) :
    Reads framework response ↔ feedLength state.mesh.feed ≤ maxResponseBytes := by
  rw [maxSteps, drive_succ framework primitives envs 15 0 state .feed Nat.one_pos, advance,
    meshFeed] at answered
  dsimp only at answered
  rw [drive_answer] at answered
  cases answered
  exact reads_feed framework readsBack 200 _

/-- The mock intent is short, so a body that does not extract does not matter. -/
theorem reads_of_announce (request : Request) (response : Response)
    (answered : (drive framework primitives envs maxSteps 0 state (.announce request)).phase =
      .answer response) :
    Reads framework response ↔ ∀ intent, framework.extractJson AgentIntent.fromJson request =
      some intent → intent.payload.byteLength ≤ maxResponseBytes := by
  rw [maxSteps, drive_succ framework primitives envs 15 0 state (.announce request)
    (Nat.zero_lt_succ 3), advance, agentAnnounce] at answered
  dsimp only at answered
  rw [drive_reply framework primitives envs 15 1 _ _ _ (Nat.le_of_ble_eq_true rfl) rfl] at answered
  cases answered
  rw [reads_intent framework readsBack 200]
  cases framework.extractJson AgentIntent.fromJson request with
  | none => exact iff_of_true ((byteLength_mock _).trans_le (by decide)) (by simp)
  | some intent => simp

include plain

/-- The bridge sends no payment, so a live backend refuses it. -/
theorem reads_of_settle (intentId : String) (request : Request)
    (built : buildRequest "POST" "/x402/settle" []
      (some (.object [("intent_id", .string intentId)])) = some request) (response : Response)
    (answered : (drive framework primitives envs maxSteps 0 state (.settle request)).phase =
      .answer response) :
    Reads framework response ↔ keyLength intentId + 14 ≤ maxRequestBodyBytes ∧
      (state.gate.backend = .mock →
        receiptLength intentId (envs 0).now ≤ maxResponseBytes) := by
  have size : (Value.object [("intent_id", .string intentId)]).byteLength =
      keyLength intentId + 14 := byteLength_settlement intentId
  rw [maxSteps, drive_succ framework primitives envs 15 0 state (.settle request)
    (Nat.zero_lt_succ 4), advance, x402Settle] at answered
  rw [← size]
  by_cases small : (Value.object [("intent_id", .string intentId)]).byteLength ≤
      maxRequestBodyBytes
  · obtain ⟨-, extracted⟩ := settle_reads framework readsBack intentId small request built
    rw [extracted] at answered
    simp only [small, true_and]
    cases backend : state.gate.backend with
    | mock =>
      simp only [backend, SettlementBackend.settle] at answered
      rw [drive_succ framework primitives envs 14 1 state (.record _ (envs 0).now)
        (Nat.zero_lt_succ 3), advance, recordReceipt] at answered
      dsimp only at answered
      rw [drive_reply framework primitives envs 14 2 _ _ _ (Nat.le_of_ble_eq_true rfl)
        rfl] at answered
      cases answered
      rw [reads_receipt framework readsBack 200, byteLength_receipt]
      simp
    | facilitator client =>
      simp only [backend, SettlementBackend.settle] at answered
      rw [drive_reply framework primitives envs 15 1 _ _ _ (Nat.le_of_ble_eq_true rfl)
        rfl] at answered
      cases answered
      refine iff_of_true ((reads_error framework readsBack 502 _ _).mpr ?_) (by simp)
      decide +kernel
  · have unread : framework.extractJson SettleRequest.fromJson request = none := by
      rw [extractJson_buildRequest_eq framework _ _ _ _ _ request built rfl
        readsBack.contentType]
      exact if_neg small
    rw [unread] at answered
    dsimp only at answered
    rw [drive_answer] at answered
    cases answered
    exact iff_of_false (not_reads_refuse framework plain request) fun short => small short.1

theorem reads_of_guard (hexText : HexText primitives) (request : Request)
    (post : request.method = "POST")
    (ideal : ∀ intent, framework.extractJson AgentIntent.fromJson request = some intent →
      IdealMint primitives intent.payload (envs 2).now (envs 2).entropy) (response : Response)
    (answered : (drive framework primitives envs maxSteps 0 state (.guard request)).phase =
      .answer response) :
    Reads framework response ↔
      (∀ receipt, Presents state request receipt →
        ∃ intent, framework.extractJson AgentIntent.fromJson request = some intent ∧
          (receipt.intentId = intent.intentId →
            envelopeLength intent.payload receipt (envs 2).now ≤ maxResponseBytes)) ∧
      ((¬ ∃ receipt, Presents state request receipt) →
        quoteLength ((request.headerStr? intentHeader).getD "") ≤ maxResponseBytes) := by
  obtain ⟨ending, kinds, ends, reached, -⟩ :=
    guard_ends framework primitives envs state request post
  cases reached.symm.trans answered
  -- Once a receipt is presented, what is asked is asked of that receipt alone.
  have only : ∀ (receipt : PaymentReceipt) (demand : PaymentReceipt → Prop) (other : Prop),
      Presents state request receipt →
      (((∀ receipt, Presents state request receipt → demand receipt) ∧
        ((¬ ∃ receipt, Presents state request receipt) → other)) ↔ demand receipt) := by
    intro receipt demand other presents
    constructor
    · exact fun both => both.1 receipt presents
    · refine fun demanded => ⟨fun another presented => ?_, fun none => absurd ⟨_, presents⟩ none⟩
      rwa [← presents_unique state request receipt another presents presented]
  cases ends with
  | refused unpresented =>
    rw [reads_terms framework readsBack 402]
    exact ⟨fun short => ⟨fun receipt presents => absurd ⟨receipt, presents⟩ unpresented,
      fun _ => short⟩, fun both => both.2 unpresented⟩
  | unread receipt presents unread =>
    rw [only receipt _ _ presents, unread]
    exact iff_of_false (not_reads_refuse framework plain request) (by simp)
  | mismatched receipt presents intent extracted different =>
    rw [only receipt _ _ presents, extracted]
    refine iff_of_true ((reads_error framework readsBack 402 _ _).mpr ?_)
      ⟨intent, rfl, fun same => absurd same different⟩
    decide +kernel
  | unminted receipt presents intent extracted same refusal refuses =>
    obtain ⟨canonical, chaos, minted⟩ := mint_payload primitives intent receipt (envs 2).now
      (envs 2).entropy (ideal intent extracted)
    cases refuses.symm.trans minted
  | released receipt presents intent extracted same credential minted =>
    obtain ⟨canonical, chaos, released⟩ := mint_payload primitives intent receipt (envs 2).now
      (envs 2).entropy (ideal intent extracted)
    cases minted.symm.trans released
    rw [only receipt _ _ presents, extracted, reads_envelope framework readsBack 200,
      byteLength_released primitives hexText]
    simp only [Option.some.injEq, exists_eq_left', imp_iff_right same]

end Answers

/-! ### Errors of the edge -/

/-- The capabilities the bridge knows. -/
def okxCapabilities : List String :=
  ["audit_feed", "intent_announce", "payment_settlement", "credential_minting"]

theorem call_eq_none_iff (inv : OkxInvocation) :
    inv.call = none ↔ inv.capability ∉ okxCapabilities := by
  simp only [OkxInvocation.call, okxCapabilities, List.mem_cons, List.not_mem_nil, or_false, not_or]
  split_ifs with feed announce settle minting
  · exact iff_of_false (by simp) fun unknown => unknown.1 feed
  · exact iff_of_false (by simp) fun unknown => unknown.2.1 announce
  · exact iff_of_false (by simp) fun unknown => unknown.2.2.1 settle
  · exact iff_of_false (by simp) fun unknown => unknown.2.2.2 minting
  · exact iff_of_true rfl ⟨feed, announce, settle, minting⟩

/-- An id the invocation puts into a header cannot stand in one. -/
def OkxInvocation.Undeliverable (inv : OkxInvocation) : Prop :=
  ∃ call, inv.call = some call ∧ ∃ header ∈ call.headers, HeaderValue.ofString? header.2 = none

/-- Headers do not hold their values exactly when one of them cannot stand in a header. -/
theorem headerValues?_eq_none_iff (headers : List (String × String)) :
    headerValues? headers = none ↔
      ∃ header ∈ headers, HeaderValue.ofString? header.2 = none := by
  constructor
  · intro none
    by_contra fits
    simp only [not_exists, not_and, ← Option.isSome_iff_ne_none, Option.isSome_iff_exists] at fits
    obtain ⟨values, held⟩ := exists_headerValues? headers fits
    rw [none] at held
    cases held
  · rintro ⟨header, member, unfit⟩
    induction headers with
    | nil => cases member
    | cons other headers inductionHypothesis =>
      simp only [headerValues?, List.mapM_cons] at inductionHypothesis ⊢
      rcases List.mem_cons.mp member with rfl | member
      · rw [unfit]
        rfl
      · rw [inductionHypothesis member]
        cases HeaderValue.ofString? other.2 <;> rfl

theorem request?_eq_none_iff (call : RouterCall) :
    call.request? = none ↔ ∃ header ∈ call.headers, HeaderValue.ofString? header.2 = none := by
  rw [← headerValues?_eq_none_iff, RouterCall.request?, buildRequest]
  obtain ⟨contentType, fits⟩ := contentType_fits
  cases headerValues? call.headers with
  | none => simp
  | some values =>
    cases call.body with
    | none => simp
    | some json => simp [fits]

/-- The bridge returns an error only for an unknown capability or an id that cannot stand in a
header; it mirrors the router's status otherwise; and with an error nothing has changed. -/
structure OnlyEdgeErrors (framework : Framework) (primitives : Primitives) (envs : Nat → Env)
    (state : HandoffState) (inv : OkxInvocation) : Prop where
  edge : ∀ refusal, (dispatchOkx framework primitives envs state inv).2 = .error refusal →
    inv.capability ∉ okxCapabilities ∨ inv.Undeliverable
  mirrors : ¬ (inv.capability ∉ okxCapabilities ∨ inv.Undeliverable) →
    ∃ call request response body, inv.call = some call ∧ call.request? = some request ∧
      (handle framework primitives envs state request).phase = .answer response ∧
      (dispatchOkx framework primitives envs state inv).2 =
        .ok ⟨inv.requestId, response.status, body⟩
  unchanged : ∀ refusal, (dispatchOkx framework primitives envs state inv).2 = .error refusal →
    (dispatchOkx framework primitives envs state inv).1.gate.receipts = state.gate.receipts ∧
      (dispatchOkx framework primitives envs state inv).1.mesh.feed = state.mesh.feed

section

variable (framework : Framework) (primitives : Primitives) (envs : Nat → Env)
  (state : HandoffState) (inv : OkxInvocation)

/-- An invocation that does not reach the router has only an error of the edge. -/
theorem onlyEdgeErrors_of_unsent (unsent : inv.capability ∉ okxCapabilities ∨ inv.Undeliverable) :
    OnlyEdgeErrors framework primitives envs state inv where
  edge _ _ := unsent
  mirrors sent := absurd unsent sent
  unchanged refusal _ := by
    rcases unsent with unknown | ⟨call, known, unfit⟩
    · rw [dispatchOkx, (call_eq_none_iff inv).mpr unknown]
      exact ⟨rfl, rfl⟩
    · rw [dispatchOkx, known]
      dsimp only
      rw [oneshotJson, (request?_eq_none_iff call).mpr unfit]
      exact ⟨rfl, rfl⟩

/-- One that does is answered with a result exactly when its response is a document within the
limit. -/
theorem onlyEdgeErrors_iff_reads (call : RouterCall) (request : Request) (response : Response)
    (known : inv.call = some call) (built : call.request? = some request)
    (answered : (handle framework primitives envs state request).phase = .answer response) :
    OnlyEdgeErrors framework primitives envs state inv ↔ Reads framework response := by
  have outcome := dispatchOkx_of_answer framework primitives envs state inv call request response
    known built answered
  have sent : ¬ (inv.capability ∉ okxCapabilities ∨ inv.Undeliverable) := by
    rintro (unknown | ⟨other, known', unfit⟩)
    · rw [(call_eq_none_iff inv).mpr unknown] at known
      cases known
    · cases known.symm.trans known'
      rw [(request?_eq_none_iff call).mpr unfit] at built
      cases built
  constructor
  · intro law
    cases read : readResponse framework response with
    | ok answer => exact ⟨answer, read⟩
    | error refusal =>
      rw [read] at outcome
      exact absurd (law.edge _ outcome) sent
  · rintro ⟨answer, read⟩
    rw [read] at outcome
    have status := readResponse_status framework response answer.1 answer.2 read
    have result : (dispatchOkx framework primitives envs state inv).2 =
        .ok ⟨inv.requestId, response.status, answer.2⟩ := by
      rw [outcome, ← status]
      rfl
    exact {
      edge := fun refusal failed => by
        rw [result] at failed
        cases failed
      mirrors := fun _ => ⟨call, request, response, answer.2, known, built, answered, result⟩
      unchanged := fun refusal failed => by
        rw [result] at failed
        cases failed }

variable (readsBack : framework.ReadsBack) (plain : framework.PlainRefusals)
  (hexText : HexText primitives)
  (ideal : ∀ intent, inv.Sends framework intent →
    IdealMint primitives intent.payload (envs 2).now (envs 2).entropy)

include readsBack plain hexText ideal

/-- The response is one exactly when the invocation is answered shortly. -/
theorem reads_iff_answersShortly (call : RouterCall) (request : Request) (response : Response)
    (known : inv.call = some call) (built : call.request? = some request)
    (answered : (handle framework primitives envs state request).phase = .answer response) :
    Reads framework response ↔ inv.AnswersShortly framework envs state := by
  obtain ⟨method, uri⟩ := sent_of_built call request built
  have sends : ∀ intent, inv.Sends framework intent ↔
      framework.extractJson AgentIntent.fromJson request = some intent := by
    intro intent
    constructor
    · rintro ⟨other, sent, known', built', extracted⟩
      cases known.symm.trans known'
      cases built.symm.trans built'
      exact extracted
    · exact fun extracted => ⟨call, request, known, built, extracted⟩
  rw [handle, handoffRouter, method, uri] at answered
  unfold OkxInvocation.AnswersShortly
  by_cases minting : inv.capability = "credential_minting"
  · obtain ⟨named, presents⟩ := headers_minting state inv minting call request known built
    rw [call_minting inv minting] at known
    cases known
    simp only [minting, ← named, ← presents, sends]
    exact reads_of_guard framework primitives envs state readsBack plain hexText request method
      (fun intent extracted => ideal intent ((sends intent).mpr extracted)) response answered
  · unfold OkxInvocation.call at known
    split_ifs at known ⊢ with feed announce settle
    · cases known
      exact reads_of_feed framework primitives envs state readsBack response answered
    · cases known
      simp only [sends]
      exact reads_of_announce framework primitives envs state readsBack request response answered
    · cases known
      exact reads_of_settle framework primitives envs state readsBack plain _ request built
        response answered

/-- The errors of the bridge are errors of the edge exactly when the invocation does not reach the
router or is answered there with a document within the limit. -/
theorem dispatchOkx_errors_iff :
    OnlyEdgeErrors framework primitives envs state inv ↔
      inv.capability ∉ okxCapabilities ∨ inv.Undeliverable ∨
        inv.AnswersShortly framework envs state := by
  by_cases unsent : inv.capability ∉ okxCapabilities ∨ inv.Undeliverable
  · rw [← or_assoc]
    exact iff_of_true (onlyEdgeErrors_of_unsent framework primitives envs state inv unsent)
      (.inl unsent)
  · rw [← or_assoc, or_iff_right unsent]
    obtain ⟨known, deliverable⟩ := not_or.mp unsent
    obtain ⟨call, called⟩ := Option.ne_none_iff_exists'.mp
      (mt (call_eq_none_iff inv).mp known)
    obtain ⟨request, built⟩ := Option.ne_none_iff_exists'.mp
      (mt (request?_eq_none_iff call).mp fun unfit => deliverable ⟨call, called, unfit⟩)
    obtain ⟨response, answered⟩ := handle_answers framework primitives envs state request
    exact (onlyEdgeErrors_iff_reads framework primitives envs state inv call request response
      called built answered).trans (reads_iff_answersShortly framework primitives envs state inv
        readsBack plain hexText ideal call request response called built answered)

end

theorem plainFramework_plainRefusals : plainFramework.PlainRefusals where
  nonempty request := by
    change "Failed to parse the request body as JSON" ≠ ""
    decide
  plain request := by
    have text : (plainFramework.refusal request).2 = "Failed to parse the request body as JSON" :=
      rfl
    rw [text, plainFramework]
    dsimp only
    rw [decodeUtf8_utf8]
    rfl

/-- The minting of the mock intent sends the mock intent. -/
theorem sends_mintingInvocation (requestId : String) (ulid other : Ulid) (intent : AgentIntent) :
    (mintingInvocation requestId (.mockEthLimitOrder ulid) other.toString).Sends plainFramework
      intent ↔ intent = .mockEthLimitOrder ulid := by
  have known := mintingInvocation_call requestId (.mockEthLimitOrder ulid) other.toString
  have small : (AgentIntent.mockEthLimitOrder ulid).payload.byteLength ≤ maxRequestBodyBytes :=
    (byteLength_mock ulid).trans_le (by decide)
  constructor
  · rintro ⟨call, request, known', built, extracted⟩
    cases known.symm.trans known'
    rw [extractJson_minting plainFramework plainFramework_readsBack _ _ request built
      small] at extracted
    exact (Option.some.inj extracted).symm
  · rintro rfl
    obtain ⟨request, built⟩ := exists_mintingRequest (.mockEthLimitOrder ulid) other.toString
      (visible_ulid ulid) (visible_ulid other)
    exact ⟨_, request, known, built,
      extractJson_minting plainFramework plainFramework_readsBack _ _ request built small⟩

/-- Minting the paid mock intent has no error. -/
theorem dispatchOkx_errors_minting :
    let intent := AgentIntent.mockEthLimitOrder plainEnv.ulid
    let receipt := PaymentReceipt.cleared plainEnv.ulid intent.intentId 7
    ∃ marked, OnlyEdgeErrors plainFramework (markingPrimitives marked) (fun _ => plainEnv)
      (settledSystem receipt).state (mintingInvocation "r" intent receipt.receiptId) := by
  intro intent receipt
  obtain ⟨marked, ideal⟩ := exists_idealMint intent 7
  have sends := sends_mintingInvocation "r" plainEnv.ulid plainEnv.ulid
  refine ⟨marked, (dispatchOkx_errors_iff plainFramework (markingPrimitives marked)
    (fun _ => plainEnv) (settledSystem receipt).state (mintingInvocation "r" intent
      receipt.receiptId) plainFramework_readsBack plainFramework_plainRefusals (fun _ => rfl)
    (fun other sent => (sends other).mp sent ▸ ideal)).mpr (.inr (.inr ?_))⟩
  rw [OkxInvocation.AnswersShortly, if_neg (by decide), if_neg (by decide), if_neg (by decide)]
  refine ⟨fun other redeems => ⟨intent, (sends intent).mpr rfl, fun _ => ?_⟩, fun none => ?_⟩
  · obtain ⟨receiptId, presented, -, found, -⟩ := redeems
    cases presented
    have held : (settledSystem receipt).state.gate.receipts.lookup receipt.receiptId =
        some receipt := rfl
    cases held.symm.trans found
    decide +kernel
  · have named : (mintingInvocation "r" intent receipt.receiptId).headerIntent =
        intent.intentId := if_pos (visible_ulid plainEnv.ulid)
    exact absurd ⟨receipt, receipt.receiptId, rfl, visible_ulid plainEnv.ulid, rfl, named.symm⟩ none

/-! ### A refused body behind the guard -/

/-- An invocation that pays for intent `a` with its receipt and sends an intent that is only an
id. -/
def partialInvocation : OkxInvocation where
  capability := "credential_minting"
  requestId := "r"
  params := .object [
    ("intent", .object [("intent_id", .string "a")]),
    ("receipt_id", .string plainEnv.ulid.toString)]

theorem partialInvocation_call :
    partialInvocation.call = some ⟨"POST", "/execute", [(intentHeader, "a"),
      (receiptHeader, plainEnv.ulid.toString)], some (.object [("intent_id", .string "a")])⟩ := rfl

theorem fromJson_incomplete : AgentIntent.fromJson (.object [("intent_id", .string "a")]) = none :=
  rfl

/-- The request of the invocation presents the receipt, and its body does not extract. -/
theorem partialInvocation_request (request : Request)
    (built : (RouterCall.mk "POST" "/execute" [(intentHeader, "a"),
      (receiptHeader, plainEnv.ulid.toString)]
        (some (.object [("intent_id", .string "a")]))).request? = some request) :
    request.method = "POST" ∧ request.uri = "/execute" ∧
      Presents (settledSystem (.cleared plainEnv.ulid "a" 7)).state request
        (.cleared plainEnv.ulid "a" 7) ∧
      plainFramework.extractJson AgentIntent.fromJson request = none := by
  obtain ⟨method, uri, -⟩ := buildRequest_eq_some _ _ _ _ _ built
  have named : request.headerStr? intentHeader = some "a" := by
    rw [headerStr?_buildRequest _ _ _ _ _ built intentHeader (by decide)]
    exact (HeaderValue.toStr?_ofString? "a").trans (if_pos (by decide))
  have presented : request.headerStr? receiptHeader = some plainEnv.ulid.toString := by
    have held : ∀ id : String, [(intentHeader, "a"), (receiptHeader, id)].lookup receiptHeader =
        some id := fun _ => rfl
    rw [headerStr?_buildRequest _ _ _ _ _ built receiptHeader (by decide), held, Option.bind_some,
      HeaderValue.toStr?_ofString?]
    exact if_pos (visible_ulid plainEnv.ulid)
  have read := plainFramework_readsBack.body (.object [("intent_id", .string "a")]) (by simp)
    (by simp) (Nat.lt_of_sub_eq_succ rfl)
  have refused := extractJson_buildRequest plainFramework AgentIntent.fromJson _ _ _ _ _ built rfl
    plainFramework_readsBack.contentType read (by decide +kernel)
  rw [fromJson_incomplete] at refused
  exact ⟨method, uri, ⟨plainEnv.ulid.toString, presented, rfl, by rw [named]; rfl⟩, refused⟩

/-- In a reachable state, for a capability it knows and ids that travel, the bridge returns an error
and the receipt is burned. -/
theorem dispatchOkx_error_burns :
    ∃ (actions : List Action) (system : System),
      Run (System.Step plainFramework (markingPrimitives [])) (.start .mock) actions system ∧
      partialInvocation.capability ∈ okxCapabilities ∧ ¬ partialInvocation.Undeliverable ∧
      (∃ refusal, (dispatchOkx plainFramework (markingPrimitives []) (fun _ => plainEnv)
        system.state partialInvocation).2 = .error refusal) ∧
      Burned system.state (dispatchOkx plainFramework (markingPrimitives []) (fun _ => plainEnv)
        system.state partialInvocation).1 := by
  obtain ⟨request, built⟩ := exists_buildRequest "POST" "/execute"
    [(intentHeader, "a"), (receiptHeader, plainEnv.ulid.toString)]
    (.object [("intent_id", .string "a")]) (by
      intro header member
      rcases List.mem_cons.mp member with rfl | member
      · exact exists_ofString? "a" (by unfold Visible; decide)
      · rw [List.mem_singleton.mp member]
        exact exists_ofString? _ (visible_ulid plainEnv.ulid))
  obtain ⟨post, execution, presents, refused⟩ := partialInvocation_request request built
  have run := run_settledSystem plainFramework (markingPrimitives []) plainFramework_readsBack "a"
    plainEnv (by decide)
  generalize settled : settledSystem (.cleared plainEnv.ulid "a" 7) = system at presents
  have sent : ¬ partialInvocation.Undeliverable := by
    rintro ⟨call, known, unfit⟩
    cases partialInvocation_call.symm.trans known
    exact absurd ((request?_eq_none_iff _).mpr unfit) (by rw [RouterCall.request?, built]; simp)
  obtain ⟨response, answered⟩ := handle_answers plainFramework (markingPrimitives [])
    (fun _ => plainEnv) system.state request
  have burned := (burned_of_presents plainFramework (markingPrimitives []) (fun _ => plainEnv)
    system.state request post execution _ presents).1
  have outcome := dispatchOkx_of_answer plainFramework (markingPrimitives []) (fun _ => plainEnv)
    system.state partialInvocation _ request response partialInvocation_call built answered
  refine ⟨_, system, settled ▸ run, by decide, sent, ?_, ?_⟩
  · cases read : readResponse plainFramework response with
    | error refusal =>
      rw [read] at outcome
      exact ⟨_, outcome⟩
    | ok answer =>
      rw [handle, handoffRouter_execute request execution] at answered
      obtain ⟨extracts, -⟩ := (reads_of_guard plainFramework (markingPrimitives [])
        (fun _ => plainEnv) system.state plainFramework_readsBack plainFramework_plainRefusals
        (fun _ => rfl) request post (fun intent extracted => by
          rw [refused] at extracted
          cases extracted) response answered).mp ⟨answer, read⟩
      obtain ⟨intent, extracted, -⟩ := extracts _ presents
      rw [refused] at extracted
      cases extracted
  · rwa [dispatchOkx_state_of_answer plainFramework (markingPrimitives []) (fun _ => plainEnv)
      system.state partialInvocation _ request response partialInvocation_call built answered]

end Hammurabi
